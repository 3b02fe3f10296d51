import Mathlib.Algebra.GroupWithZero.Nat
import Mathlib.Data.List.Induction
import Mathlib.Data.Nat.Find
import KeyValueServer.Proofs.ByteQueue
import KeyValueServer.Proofs.Checked

/-!
# A queue of bytes, over any history

Bytes are appended and consumed in any amounts and any order. Each `ByteQueue.append` finds the live
bytes somewhere in the array, between bytes that were consumed and bytes that were never written or
are left over from before a move; it may write where there is room, move the live bytes to the
front, enlarge the array, or do both. None of this is seen: what is live is always what was
appended, without as many bytes from its front as were consumed.

That no offset leaves the array is part of the type `ByteQueue`. To tell that this asks for nothing
that the operations do not themselves provide, they are also given for an array and two offsets of
which nothing is known (`ByteQueue.Layout`), where each access may fault. From an empty queue the
two agree, so no access ever does.

## Main results

* `ByteQueue.append_layout`, `ByteQueue.consume_layout`: no access leaves the array.
* `Bytes.crlfIndex_eq_some_iff`, `Bytes.crlfIndex_eq_none_iff`: the first line end, by its bytes.
* `ByteQueue.replay_exact`: the queue after any history.
-/

namespace KeyValueServer

/-! ### Line ends -/

namespace Bytes

variable {bytes : Bytes}

/-- `LineEndAt bytes k`: a line end stands at the offset `k`. -/
def LineEndAt (bytes : Bytes) (k : Nat) : Prop :=
  bytes[k]? = some carriageReturn ∧ bytes[k + 1]? = some lineFeed

instance (bytes : Bytes) (k : Nat) : Decidable (LineEndAt bytes k) :=
  inferInstanceAs (Decidable (_ ∧ _))

/-- `LineEndAt` takes two bytes. -/
theorem LineEndAt.add_two_le {k : Nat} (h : LineEndAt bytes k) : k + 2 ≤ bytes.length := by
  obtain ⟨hlt, -⟩ := List.getElem?_eq_some_iff.mp h.2
  exact hlt

/-- `LineEndAt` behind the first byte is one further. -/
theorem lineEndAt_cons_succ {b : UInt8} {k : Nat} :
    LineEndAt (b :: bytes) (k + 1) ↔ LineEndAt bytes k := by
  rw [LineEndAt, List.getElem?_cons_succ, List.getElem?_cons_succ, LineEndAt]

/-- **`crlfIndex` is where a line end stands and none stands before it.** -/
theorem crlfIndex_eq_some_iff {k : Nat} :
    crlfIndex bytes = some k ↔ LineEndAt bytes k ∧ ∀ j < k, ¬ LineEndAt bytes j := by
  induction bytes using crlfIndex.induct generalizing k with
  | case1 a b rest hend =>
      have hfront : LineEndAt (a :: b :: rest) 0 := by
        rw [hend.1, hend.2]
        exact ⟨rfl, rfl⟩
      rw [crlfIndex, if_pos hend, Option.some.injEq]
      constructor
      · rintro rfl
        exact ⟨hfront, fun j hj => absurd hj (Nat.not_lt_zero j)⟩
      · rintro ⟨-, hfirst⟩
        by_contra hk
        exact hfirst 0 (by omega) hfront
  | case2 a b rest hend ih =>
      have hfront : ¬ LineEndAt (a :: b :: rest) 0 := by
        rintro ⟨ha, hb⟩
        exact hend ⟨Option.some.inj ha, Option.some.inj hb⟩
      rw [crlfIndex, if_neg hend, Option.map_eq_some_iff]
      constructor
      · rintro ⟨i, hi, rfl⟩
        obtain ⟨hstands, hfirst⟩ := ih.mp hi
        refine ⟨lineEndAt_cons_succ.mpr hstands, fun j hj => ?_⟩
        cases j with
        | zero => exact hfront
        | succ j => exact fun h => hfirst j (by omega) (lineEndAt_cons_succ.mp h)
      · rintro ⟨hstands, hfirst⟩
        cases k with
        | zero => exact absurd hstands hfront
        | succ i =>
            refine ⟨i, ih.mpr ⟨lineEndAt_cons_succ.mp hstands, fun j hj h => ?_⟩, rfl⟩
            exact hfirst (j + 1) (by omega) (lineEndAt_cons_succ.mpr h)
  | case3 bytes hshort =>
      rw [crlfIndex]
      · refine iff_of_false (Option.some_ne_none k).symm ?_
        rintro ⟨hstands, -⟩
        have hlength := hstands.add_two_le
        obtain _ | ⟨a, _ | ⟨b, rest⟩⟩ := bytes
        · simp at hlength
        · simp at hlength
        · exact hshort a b rest rfl
      · exact hshort

/-- **`crlfIndex` is `none` where no line end stands.** -/
theorem crlfIndex_eq_none_iff : crlfIndex bytes = none ↔ ∀ k, ¬ LineEndAt bytes k := by
  constructor
  · intro hnone k hstands
    have hexists : ∃ k, LineEndAt bytes k := ⟨k, hstands⟩
    have hsome : crlfIndex bytes = some (Nat.find hexists) :=
      crlfIndex_eq_some_iff.mpr ⟨Nat.find_spec hexists, fun _ => Nat.find_min hexists⟩
    rw [hnone] at hsome
    cases hsome
  · intro h
    cases hindex : crlfIndex bytes with
    | none => rfl
    | some k => exact absurd (crlfIndex_eq_some_iff.mp hindex).1 (h k)

end Bytes

namespace ByteQueue

/-! ### An array and two offsets -/

/-- A `Layout` is an array and two offsets, of which nothing is known. -/
structure Layout where
  /-- The array. -/
  data : Array UInt8
  /-- The offset of the first live byte. -/
  start : Nat
  /-- The offset behind the last live byte. -/
  stop : Nat

namespace Layout

/-- `piece data first last` are the bytes of an array from one offset up to another. Both must lie
in the array, in order. -/
def piece (data : Array UInt8) (first last : Nat) : Checked Bytes :=
  if first ≤ last ∧ last ≤ data.size then .ok (data.extract first last).toList
  else .error .outOfRange

/-- `overwrite data position bytes` is the array with bytes written from a position on. They must
fit behind it. -/
def overwrite (data : Array UInt8) (position : Nat) (bytes : Bytes) : Checked (Array UInt8) :=
  if room : position + bytes.length ≤ data.size then .ok (write data position bytes room)
  else .error .outOfRange

/-- `resize data size` is the array cut or filled up with zeros to a size. -/
def resize (data : Array UInt8) (size : Nat) : Array UInt8 :=
  data.extract 0 size ++ Array.replicate (size - data.size) 0

/-- `l.settle live` moves the live bytes to the front, if some bytes have been consumed before
them. -/
def settle (l : Layout) (live : Nat) : Checked Layout :=
  if 0 < l.start then do
    let bytes ← piece l.data l.start l.stop
    let data ← overwrite l.data 0 bytes
    .ok ⟨data, 0, live⟩
  else .ok l

/-- `l.makeRoom needed` moves the live bytes to the front, and enlarges the array if that does not
do. -/
def makeRoom (l : Layout) (needed : Nat) : Checked Layout := do
  let live ← Checked.difference l.stop l.start
  let l ← l.settle live
  .ok (if l.data.size < live + needed then
      { l with data := resize l.data (max (l.data.size * 2) (live + needed)) }
    else l)

/-- `l.reserve needed` makes room if there is none behind the live bytes. -/
def reserve (l : Layout) (needed : Nat) : Checked Layout :=
  if l.data.size < l.stop + needed then l.makeRoom needed else .ok l

/-- `l.append bytes` adds bytes at the back. -/
def append (l : Layout) (bytes : Bytes) : Checked Layout := do
  let l ← l.reserve bytes.length
  let data ← overwrite l.data l.stop bytes
  .ok ⟨data, l.start, l.stop + bytes.length⟩

/-- `l.consume n` drops the first `n` bytes. There must be as many. -/
def consume (l : Layout) (n : Nat) : Checked Layout := do
  let live ← Checked.difference l.stop l.start
  if n ≤ live then
    .ok (if l.start + n = l.stop then ⟨l.data, 0, 0⟩ else ⟨l.data, l.start + n, l.stop⟩)
  else .error .assertion

end Layout

/-- `q.layout` is the array and the offsets of a queue. -/
def layout (q : ByteQueue) : Layout :=
  ⟨q.data, q.start, q.stop⟩

@[simp] theorem data_layout (q : ByteQueue) : q.layout.data = q.data := rfl

@[simp] theorem start_layout (q : ByteQueue) : q.layout.start = q.start := rfl

@[simp] theorem stop_layout (q : ByteQueue) : q.layout.stop = q.stop := rfl

/-- `piece` of the live bytes lies in the array. -/
theorem piece_live (q : ByteQueue) : Layout.piece q.data q.start q.stop = .ok q.live :=
  if_pos ⟨q.start_le_stop, q.stop_le_size⟩

/-- The offsets of a queue are in order. -/
theorem difference_layout (q : ByteQueue) :
    Checked.difference q.layout.stop q.layout.start = .ok q.size :=
  if_pos q.start_le_stop

/-- `overwrite` of what fits is `write`. -/
theorem overwrite_ok {data : Array UInt8} {position : Nat} {bytes : Bytes}
    (room : position + bytes.length ≤ data.size) :
    Layout.overwrite data position bytes = .ok (write data position bytes room) :=
  dif_pos room

/-- `Layout.settle` reads and writes inside the array. -/
theorem settle_layout (q : ByteQueue) : q.layout.settle q.size = .ok q.settle.layout := by
  rw [Layout.settle, settle, start_layout]
  by_cases hstart : 0 < q.start
  · have hroom : 0 + q.live.length ≤ q.data.size := by
      have := q.stop_le_size
      rw [length_live, size]
      omega
    rw [if_pos hstart, if_pos hstart, data_layout, stop_layout, piece_live, Checked.ok_bind,
      overwrite_ok hroom, Checked.ok_bind]
    rfl
  · rw [if_neg hstart, if_neg hstart]

/-- `settle` keeps the number of live bytes. -/
theorem size_settle (q : ByteQueue) : q.settle.size = q.size := by
  rw [← length_live, live_settle, length_live]

/-- `settle` lets the live bytes end where there are as many. -/
theorem stop_settle (q : ByteQueue) : q.settle.stop = q.size := by
  rw [← size_settle, size, start_settle, Nat.sub_zero]

/-- `resize` to a larger size keeps all bytes. -/
theorem resize_of_le {data : Array UInt8} {size : Nat} (h : data.size ≤ size) :
    Layout.resize data size = data ++ Array.replicate (size - data.size) 0 := by
  rw [Layout.resize, Array.extract_eq_self_of_le h]

/-- **`Layout.reserve` reads and writes inside the array**, whether the live bytes are moved, the
array is enlarged, or both. -/
theorem reserve_layout (q : ByteQueue) (needed : Nat) :
    q.layout.reserve needed = .ok (q.reserve needed).layout := by
  rw [Layout.reserve, reserve, data_layout, stop_layout]
  by_cases hroom : q.stop + needed ≤ q.data.size
  · rw [if_neg (Nat.not_lt.mpr hroom), if_pos hroom]
  · rw [if_pos (Nat.lt_of_not_le hroom), if_neg hroom, Layout.makeRoom, difference_layout,
      Checked.ok_bind, settle_layout, Checked.ok_bind, data_layout, stop_settle]
    by_cases hsettled : q.size + needed ≤ q.settle.data.size
    · rw [if_neg (Nat.not_lt.mpr hsettled), if_pos hsettled]
    · have hgrown : q.settle.data.size ≤ max (q.settle.data.size * 2) (q.size + needed) := by
        omega
      rw [if_pos (Nat.lt_of_not_le hsettled), if_neg hsettled, resize_of_le hgrown, ← size_settle]
      rfl

/-- **`Layout.append` reads and writes inside the array.** -/
theorem append_layout (q : ByteQueue) (bytes : Bytes) :
    q.layout.append bytes = .ok (q.append bytes).layout := by
  rw [Layout.append, reserve_layout, Checked.ok_bind, data_layout, stop_layout,
    overwrite_ok (q.stop_reserve_le bytes.length), Checked.ok_bind]
  rfl

/-- **`Layout.consume` keeps the offsets in the array**, or refuses. -/
theorem consume_layout (q : ByteQueue) (n : Nat) :
    q.layout.consume n = (q.consume n).map layout := by
  rw [Layout.consume, difference_layout, Checked.ok_bind, start_layout, stop_layout, consume]
  by_cases hn : n ≤ q.size
  · rw [if_pos hn, dif_pos hn]
    by_cases hall : q.start + n = q.stop
    · rw [if_pos hall, if_pos hall]
      rfl
    · rw [if_neg hall, if_neg hall]
      rfl
  · rw [if_neg hn, dif_neg hn]
    rfl

/-! ### Histories -/

/-- An `Edit` is what is done at one of the two ends. -/
inductive Edit
  | append (bytes : Bytes)
  | consume (n : Nat)

namespace Edit

/-- `edit.added` are the bytes that are added at the back. -/
def added : Edit → Bytes
  | .append bytes => bytes
  | .consume _ => []

/-- `edit.taken` is how many bytes are taken from the front. -/
def taken : Edit → Nat
  | .append _ => 0
  | .consume n => n

/-- `edit.on q` is the queue after the edit. -/
def on (q : ByteQueue) : Edit → Checked ByteQueue
  | .append bytes => .ok (q.append bytes)
  | .consume n => q.consume n

/-- `edit.onLayout l` is the array and the offsets after the edit. -/
def onLayout (l : Layout) : Edit → Checked Layout
  | .append bytes => l.append bytes
  | .consume n => l.consume n

end Edit

/-- `appended edits` are all bytes that have been appended. -/
def appended (edits : List Edit) : Bytes :=
  edits.flatMap Edit.added

/-- `consumed edits` is how many bytes have been consumed. -/
def consumed (edits : List Edit) : Nat :=
  (edits.map Edit.taken).sum

/-- `Within edits`: at no time has more been consumed than had been appended. -/
def Within (edits : List Edit) : Prop :=
  ∀ front, front <+: edits → consumed front ≤ (appended front).length

/-- `replay capacity edits` is the queue that edits lead to, from an empty one. -/
def replay (capacity : Nat) (edits : List Edit) : Checked ByteQueue :=
  edits.foldlM Edit.on (ofCapacity capacity)

/-- `replayLayout capacity edits` is the array and the offsets that edits lead to. -/
def replayLayout (capacity : Nat) (edits : List Edit) : Checked Layout :=
  edits.foldlM Edit.onLayout ⟨Array.replicate capacity 0, 0, 0⟩

variable {edits : List Edit} {edit : Edit} {capacity : Nat}

/-- `appended` with one edit more. -/
theorem appended_append_singleton : appended (edits ++ [edit]) = appended edits ++ edit.added := by
  simp [appended]

/-- `consumed` with one edit more. -/
theorem consumed_append_singleton : consumed (edits ++ [edit]) = consumed edits + edit.taken := by
  simp [consumed]

/-- `Within` with one edit more. -/
theorem within_append_singleton : Within (edits ++ [edit]) ↔
    Within edits ∧ consumed edits + edit.taken ≤ (appended edits ++ edit.added).length := by
  rw [← appended_append_singleton, ← consumed_append_singleton]
  constructor
  · intro h
    exact ⟨fun front hfront => h front (hfront.trans (List.prefix_append _ _)),
      h _ (List.prefix_refl _)⟩
  · rintro ⟨h, hlast⟩ front hfront
    rcases List.prefix_concat_iff.mp hfront with rfl | hfront
    · exact hlast
    · exact h front hfront

/-- `replay` makes the last edit on the queue that the others lead to. -/
theorem replay_append_singleton : replay capacity (edits ++ [edit]) =
    (replay capacity edits >>= fun q => Edit.on q edit) := by
  rw [replay, List.foldlM_append, replay]
  simp

/-- **`Edit.onLayout` does not read or write outside the array.** -/
theorem onLayout_layout (q : ByteQueue) (edit : Edit) :
    edit.onLayout q.layout = (edit.on q).map layout := by
  cases edit with
  | append bytes => exact q.append_layout bytes
  | consume n => exact q.consume_layout n

/-- **`replayLayout` does not read or write outside the array.** -/
theorem replayLayout_eq (capacity : Nat) (edits : List Edit) :
    replayLayout capacity edits = (replay capacity edits).map layout := by
  induction edits using List.reverseRecOn with
  | nil => rfl
  | append_singleton edits edit ih =>
      have hlast : replayLayout capacity (edits ++ [edit]) =
          (replayLayout capacity edits >>= fun l => Edit.onLayout l edit) := by
        rw [replayLayout, List.foldlM_append, replayLayout]
        simp
      rw [hlast, ih, replay_append_singleton]
      cases replay capacity edits with
      | error fault => rfl
      | ok q => exact onLayout_layout q edit

/-- `consume` of more than is live is refused. -/
theorem consume_refused {q : ByteQueue} {n : Nat} (h : q.live.length < n) :
    q.consume n = .error .assertion := by
  rw [length_live] at h
  rw [consume, dif_neg (Nat.not_le.mpr h)]

/-- `consume` is refused for want of bytes, and for nothing else. -/
theorem consume_error_iff {q : ByteQueue} {n : Nat} :
    (∃ fault, q.consume n = .error fault) ↔ q.live.length < n := by
  constructor
  · rintro ⟨fault, hfault⟩
    by_contra hn
    obtain ⟨q', hconsume, -⟩ := q.consume_ok (Nat.le_of_not_lt hn)
    rw [hconsume] at hfault
    cases hfault
  · exact fun h => ⟨.assertion, consume_refused h⟩

/-- `q.Rewound`: if the queue is empty, it stands at the front of its array. -/
def Rewound (q : ByteQueue) : Prop :=
  q.live = [] → q.start = 0 ∧ q.stop = 0

/-- `consume` leaves a queue that is `Rewound`. -/
theorem rewound_of_consume {q q' : ByteQueue} {n : Nat} (h : q.consume n = .ok q') :
    q'.Rewound := by
  intro hlive
  have hempty : q'.stop - q'.start = 0 := by
    rw [← size, ← length_live, hlive]
    rfl
  rw [consume] at h
  split at h
  · rename_i hn
    split at h
    · obtain rfl := Except.ok.inj h
      exact ⟨rfl, rfl⟩
    · rename_i hleft
      obtain rfl := Except.ok.inj h
      have hrest : q.stop - (q.start + n) = 0 := hempty
      rw [size] at hn
      have := q.start_le_stop
      omega
  · cases h

/-- `append` keeps a queue `Rewound`: adding nothing to an empty queue leaves it where it is. -/
theorem Rewound.append {q : ByteQueue} (h : q.Rewound) (bytes : Bytes) :
    (q.append bytes).Rewound := by
  intro hlive
  rw [live_append, List.append_eq_nil_iff] at hlive
  obtain ⟨hempty, rfl⟩ := hlive
  have hreserve : q.reserve 0 = q := if_pos q.stop_le_size
  obtain ⟨hstart, hstop⟩ := h hempty
  refine ⟨?_, ?_⟩
  · show (q.reserve 0).start = 0
    rw [hreserve, hstart]
  · show (q.reserve 0).stop + 0 = 0
    rw [hreserve, hstop]

/-- **Edits `Within` what there is leave what was appended without what was consumed**, and others
come to an end where too much is consumed. -/
theorem replay_cases (capacity : Nat) (edits : List Edit) :
    (∃ q, replay capacity edits = .ok q ∧ Within edits ∧ q.Rewound ∧
      q.live = (appended edits).drop (consumed edits)) ∨
    (replay capacity edits = .error .assertion ∧ ¬ Within edits) := by
  induction edits using List.reverseRecOn with
  | nil =>
      refine .inl ⟨ofCapacity capacity, rfl, ?_, fun _ => ⟨rfl, rfl⟩, live_ofCapacity capacity⟩
      intro front hfront
      rw [List.prefix_nil.mp hfront]
      exact Nat.le_refl 0
  | append_singleton edits edit ih =>
      rw [replay_append_singleton, within_append_singleton, appended_append_singleton,
        consumed_append_singleton]
      obtain ⟨q, hq, hwithin, hrewound, hlive⟩ | ⟨hfault, hwithin⟩ := ih
      · have hle : consumed edits ≤ (appended edits).length := hwithin edits List.prefix_rfl
        rw [hq, Checked.ok_bind]
        cases edit with
        | append bytes =>
            refine .inl ⟨q.append bytes, rfl, ⟨hwithin, ?_⟩, hrewound.append bytes, ?_⟩
            · rw [Edit.taken, Edit.added, List.length_append]
              omega
            · rw [live_append, hlive, Edit.taken, Edit.added, Nat.add_zero,
                List.drop_append_of_le_length hle]
        | consume n =>
            have hlength : q.live.length = (appended edits).length - consumed edits := by
              rw [hlive, List.length_drop]
            rw [Edit.taken, Edit.added, List.append_nil]
            by_cases hn : n ≤ q.live.length
            · obtain ⟨q', hq', hlive'⟩ := q.consume_ok hn
              refine .inl ⟨q', hq', ⟨hwithin, by omega⟩, rewound_of_consume hq', ?_⟩
              rw [hlive', hlive, List.drop_drop]
            · refine .inr ⟨consume_refused (Nat.lt_of_not_le hn), ?_⟩
              rintro ⟨-, htaken⟩
              omega
      · rw [hfault]
        exact .inr ⟨rfl, fun h => hwithin h.1⟩

/-- `q.Serves bytes`: the queue holds `bytes` and serves them as a queue should. -/
structure Serves (q : ByteQueue) (bytes : Bytes) : Prop where
  /-- The bytes are what can be read. -/
  live_eq : q.live = bytes
  /-- The offsets are in order. -/
  start_le_stop : q.start ≤ q.stop
  /-- The live bytes stand inside the array. -/
  stop_le_size : q.stop ≤ q.data.size
  /-- An empty queue stands at the front of the array. -/
  rewound : bytes = [] → q.start = 0 ∧ q.stop = 0
  /-- What is appended comes behind the live bytes, which stay as they are. -/
  live_append : ∀ later, (q.append later).live = bytes ++ later
  /-- What is appended is written inside the array. -/
  append_layout : ∀ later, q.layout.append later = .ok (q.append later).layout
  /-- Consuming is refused just if there are fewer bytes. -/
  consume_error_iff : ∀ n, (∃ fault, q.consume n = .error fault) ↔ bytes.length < n
  /-- The first line end that is found stands in the bytes, and none stands before it. -/
  crlfOffset?_eq_some_iff : ∀ k, q.crlfOffset? = some k ↔
    Bytes.LineEndAt bytes k ∧ ∀ j < k, ¬ Bytes.LineEndAt bytes j
  /-- None is found just if none stands in the bytes. -/
  crlfOffset?_eq_none_iff : q.crlfOffset? = none ↔ ∀ k, ¬ Bytes.LineEndAt bytes k

/-- A queue that is `Rewound` serves its live bytes. -/
theorem Rewound.serves {q : ByteQueue} (h : q.Rewound) : q.Serves q.live where
  live_eq := rfl
  start_le_stop := q.start_le_stop
  stop_le_size := q.stop_le_size
  rewound := h
  live_append := q.live_append
  append_layout := q.append_layout
  consume_error_iff _ := ByteQueue.consume_error_iff
  crlfOffset?_eq_some_iff _ := by
    rw [crlfOffset?_eq]
    exact Bytes.crlfIndex_eq_some_iff
  crlfOffset?_eq_none_iff := by
    rw [crlfOffset?_eq]
    exact Bytes.crlfIndex_eq_none_iff

/-- **A queue of bytes, whatever its first capacity and whatever is appended and consumed.** Where
the edits are `Within` what there is, the queue `Serves` what was appended without what was
consumed, and its array and offsets are those of `replayLayout`, where every access to the array may
fault. Otherwise both come to an end where too much is consumed, and for that reason. -/
theorem replay_exact (capacity : Nat) (edits : List Edit) :
    (Within edits ∧ ∃ q, replay capacity edits = .ok q ∧
      replayLayout capacity edits = .ok q.layout ∧
      q.Serves ((appended edits).drop (consumed edits))) ∨
    (¬ Within edits ∧ replay capacity edits = .error .assertion ∧
      replayLayout capacity edits = .error .assertion) := by
  rw [replayLayout_eq]
  obtain ⟨q, hq, hwithin, hrewound, hlive⟩ | ⟨hfault, hwithin⟩ := replay_cases capacity edits
  · rw [hq]
    exact .inl ⟨hwithin, q, rfl, rfl, hlive ▸ hrewound.serves⟩
  · rw [hfault]
    exact .inr ⟨hwithin, rfl, rfl⟩

/-- Appending where there is no room moves the live byte to the front and enlarges the array. -/
example : replayLayout 4 [.append [1, 2, 3], .consume 2, .append [4, 5, 6, 7, 8, 9]] =
    .ok ⟨#[3, 4, 5, 6, 7, 8, 9, 0], 0, 7⟩ := rfl

end ByteQueue

end KeyValueServer
