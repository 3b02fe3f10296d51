import KeyValueServer.Fault
import KeyValueServer.Bytes

/-!
# A queue of bytes

Input is appended at the back and consumed at the front. The bytes stand in an array between
two offsets; consuming moves the first offset forward in constant time, and only an append
that finds no room behind the second one moves the live bytes to the front of the array, or
enlarges it. A queue that consuming has drained starts again at offset zero.

The order of the offsets and the end of the array are part of the type, so no operation reads
or writes outside the array.

## Main definitions

* `ByteQueue.live` — the bytes that the queue holds, which is what it means;
* `ByteQueue.append`, `ByteQueue.consume` — the two ends;
* `ByteQueue.crlfOffset?` — the first line end among the live bytes.
-/

namespace KeyValueServer

/-- A queue of bytes in an array. -/
structure ByteQueue where
  /-- The array that holds the live bytes and the room around them. -/
  data : Array UInt8
  /-- The offset of the first live byte. -/
  start : Nat
  /-- The offset behind the last live byte. -/
  stop : Nat
  /-- The offsets are in order. -/
  start_le_stop : start ≤ stop := by omega
  /-- The live bytes stand inside the array. -/
  stop_le_size : stop ≤ data.size := by omega

namespace ByteQueue

/-- Writes bytes into an array from a position on. -/
def write (data : Array UInt8) (position : Nat) (bytes : Bytes)
    (room : position + bytes.length ≤ data.size) : Array UInt8 :=
  match bytes with
  | [] => data
  | b :: rest =>
    write (data.set position b (by simp only [List.length_cons] at room; omega)) (position + 1) rest
      (by simp only [List.length_cons] at room; rw [Array.size_set]; omega)

/-- Writing changes no size. -/
@[simp] theorem size_write (data : Array UInt8) (position : Nat) (bytes : Bytes)
    (room : position + bytes.length ≤ data.size) :
    (write data position bytes room).size = data.size := by
  induction bytes generalizing data position with
  | nil => rfl
  | cons b rest ih => rw [write, ih, Array.size_set]

/-- An empty queue in an array of the given size. -/
def ofCapacity (capacity : Nat) : ByteQueue where
  data := Array.replicate capacity 0
  start := 0
  stop := 0

/-- How many bytes the queue holds. -/
def size (q : ByteQueue) : Nat :=
  q.stop - q.start

/-- Whether the queue holds no byte. -/
def isEmpty (q : ByteQueue) : Bool :=
  q.start == q.stop

/-- The bytes that the queue holds, from the front. -/
def live (q : ByteQueue) : Bytes :=
  (q.data.extract q.start q.stop).toList

/-- There are as many live bytes as the offsets say. -/
@[simp] theorem length_live (q : ByteQueue) : q.live.length = q.size := by
  have := q.stop_le_size
  simp only [live, size, Array.length_toList, Array.size_extract]
  omega

/-- The queue with its live bytes at the front of the array. -/
def compact (q : ByteQueue) : ByteQueue where
  data := write q.data 0 q.live
    (by have := q.stop_le_size; have := q.length_live; simp only [size] at this; omega)
  start := 0
  stop := q.size
  stop_le_size := by
    have := q.stop_le_size
    rw [size_write, size]
    omega

/-- The queue in an array that is at least twice as large and has room for `needed` bytes
behind the live ones. -/
def enlarge (q : ByteQueue) (needed : Nat) : ByteQueue where
  data := q.data ++
    Array.replicate (max (q.data.size * 2) (q.size + needed) - q.data.size) 0
  start := q.start
  stop := q.stop
  start_le_stop := q.start_le_stop
  stop_le_size := by
    have := q.stop_le_size
    rw [Array.size_append]
    omega

/-- The queue with its live bytes at the front, if some bytes have been consumed before
them. -/
def settle (q : ByteQueue) : ByteQueue :=
  if 0 < q.start then q.compact else q

/-- The same live bytes with room for `needed` more behind them. -/
def reserve (q : ByteQueue) (needed : Nat) : ByteQueue :=
  if q.stop + needed ≤ q.data.size then q
  else if q.settle.stop + needed ≤ q.settle.data.size then q.settle
  else q.settle.enlarge needed

/-- After settling, the first live byte is at the front. -/
theorem start_settle (q : ByteQueue) : q.settle.start = 0 := by
  unfold settle
  split
  · rfl
  · omega

/-- **There is room after reserving it.** -/
theorem stop_reserve_le (q : ByteQueue) (needed : Nat) :
    (q.reserve needed).stop + needed ≤ (q.reserve needed).data.size := by
  unfold reserve
  split
  · assumption
  · split
    · assumption
    · have hs := q.start_settle
      simp only [enlarge, Array.size_append, Array.size_replicate, size]
      omega

/-- The queue with bytes added at the back. -/
def append (q : ByteQueue) (bytes : Bytes) : ByteQueue :=
  let roomy := q.reserve bytes.length
  { data := write roomy.data roomy.stop bytes (q.stop_reserve_le bytes.length)
    start := roomy.start
    stop := roomy.stop + bytes.length
    start_le_stop := by have := roomy.start_le_stop; omega
    stop_le_size := by rw [size_write]; exact q.stop_reserve_le bytes.length }

/-- The queue without its first `n` bytes. There must be as many. -/
def consume (q : ByteQueue) (n : Nat) : Checked ByteQueue :=
  if h : n ≤ q.size then
    if q.start + n = q.stop then
      .ok { data := q.data, start := 0, stop := 0 }
    else
      .ok
        { data := q.data
          start := q.start + n
          stop := q.stop
          start_le_stop := by have := q.start_le_stop; rw [size] at h; omega
          stop_le_size := q.stop_le_size }
  else .error .assertion

/-- The live byte at an offset from the front. -/
def get? (q : ByteQueue) (offset : Nat) : Option UInt8 :=
  if q.start + offset < q.stop then q.data[q.start + offset]? else none

/-- The live bytes from one offset up to another. Both must lie in the queue, in order. -/
def slice (q : ByteQueue) (first last : Nat) : Checked Bytes :=
  if first ≤ last ∧ last ≤ q.size then
    .ok (q.data.extract (q.start + first) (q.start + last)).toList
  else .error .outOfRange

/-- The first position, from `position` on and within `steps` positions, at which a line end
stands in the array. -/
def crlfPosition? (data : Array UInt8) (position : Nat) : Nat → Option Nat
  | 0 => none
  | steps + 1 =>
    if data[position]? = some Bytes.carriageReturn ∧ data[position + 1]? = some Bytes.lineFeed then
      some position
    else crlfPosition? data (position + 1) steps

/-- The offset of the first line end among the live bytes. -/
def crlfOffset? (q : ByteQueue) : Option Nat :=
  (crlfPosition? q.data q.start (q.size - 1)).map (· - q.start)

end ByteQueue

end KeyValueServer
