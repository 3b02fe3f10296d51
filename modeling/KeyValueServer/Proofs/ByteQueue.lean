import KeyValueServer.ByteQueue

/-!
# A queue of bytes is the list of its live bytes

Where the live bytes stand in the array, and when `ByteQueue.compact` moves them, is not seen by
those who use the queue. Every operation is a list operation on `ByteQueue.live`.

## Main results

* `ByteQueue.live_append`, `consume_ok`: the two ends.
* `ByteQueue.get?_eq`, `slice_ok`, `crlfOffset?_eq`: what is read of the live bytes.
* `Bytes.crlfIndex_append`, `crlfIndex_of_append`: a first line end stays the first one when bytes
  are added behind it.
-/

namespace KeyValueServer

/-! ### Line ends -/

namespace Bytes

variable {bytes later : Bytes} {k : Nat}

/-- `crlfIndex` finds two bytes. -/
theorem add_two_le_of_crlfIndex (h : crlfIndex bytes = some k) : k + 2 ≤ bytes.length := by
  induction bytes using crlfIndex.induct generalizing k with
  | case1 a b rest hend =>
      rw [crlfIndex, if_pos hend] at h
      cases h
      simp
  | case2 a b rest hend ih =>
      rw [crlfIndex, if_neg hend, Option.map_eq_some_iff] at h
      obtain ⟨j, hj, rfl⟩ := h
      have := ih hj
      rw [List.length_cons]
      omega
  | case3 bytes hshort =>
      rw [crlfIndex] at h
      · cases h
      · exact hshort

/-- `crlfIndex` stays the same when bytes are added behind. -/
theorem crlfIndex_append (h : crlfIndex bytes = some k) (later : Bytes) :
    crlfIndex (bytes ++ later) = some k := by
  induction bytes using crlfIndex.induct generalizing k with
  | case1 a b rest hend =>
      rw [crlfIndex, if_pos hend] at h
      rw [List.cons_append, List.cons_append, crlfIndex, if_pos hend, h]
  | case2 a b rest hend ih =>
      rw [crlfIndex, if_neg hend, Option.map_eq_some_iff] at h
      obtain ⟨j, hj, rfl⟩ := h
      have hlater := ih hj
      rw [List.cons_append] at hlater
      rw [List.cons_append, List.cons_append, crlfIndex, if_neg hend, hlater]
      rfl
  | case3 bytes hshort =>
      rw [crlfIndex] at h
      · cases h
      · exact hshort

/-- `crlfIndex` was the same before bytes were added behind it. -/
theorem crlfIndex_of_append (h : crlfIndex (bytes ++ later) = some k) (hle : k + 2 ≤ bytes.length) :
    crlfIndex bytes = some k := by
  induction bytes using crlfIndex.induct generalizing k with
  | case1 a b rest hend =>
      rw [List.cons_append, List.cons_append, crlfIndex, if_pos hend] at h
      rw [crlfIndex, if_pos hend, h]
  | case2 a b rest hend ih =>
      rw [List.cons_append, List.cons_append, crlfIndex, if_neg hend, Option.map_eq_some_iff] at h
      obtain ⟨j, hj, rfl⟩ := h
      rw [← List.cons_append] at hj
      have hbefore := ih hj (by simp only [List.length_cons] at hle ⊢; omega)
      rw [crlfIndex, if_neg hend, hbefore]
      rfl
  | case3 bytes hshort =>
      match bytes, hshort, hle with
      | [], _, hle => simp at hle
      | [_], _, hle => simp at hle
      | a :: b :: rest, hshort, _ => exact absurd rfl (hshort a b rest)

/-- A line end at the very front begins with its first byte. -/
theorem head?_of_crlfIndex_zero (h : crlfIndex bytes = some 0) :
    bytes.head? = some carriageReturn := by
  match bytes with
  | [] => cases h
  | [_] => cases h
  | a :: b :: rest =>
      by_cases hend : a = carriageReturn ∧ b = lineFeed
      · rw [hend.1]
        rfl
      · rw [crlfIndex, if_neg hend, Option.map_eq_some_iff] at h
        obtain ⟨j, -, hj⟩ := h
        cases hj

end Bytes

namespace ByteQueue

/-! ### The array -/

/-- `live` is a piece of the array. -/
theorem live_eq (q : ByteQueue) : q.live = (q.data.toList.drop q.start).take q.size := by
  rw [live, Array.toList_extract, List.extract_eq_take_drop, size]

/-- `write` replaces the bytes from the position on. -/
theorem toList_write (data : Array UInt8) (position : Nat) (bytes : Bytes)
    (room : position + bytes.length ≤ data.size) :
    (write data position bytes room).toList =
      data.toList.take position ++ bytes ++ data.toList.drop (position + bytes.length) := by
  induction bytes generalizing data position with
  | nil => rw [write, List.append_nil, List.length_nil, Nat.add_zero, List.take_append_drop]
  | cons b rest ih =>
      have hposition : position < data.toList.length := by
        rw [Array.length_toList]
        rw [List.length_cons] at room
        omega
      rw [write, ih, Array.toList_set, List.take_set, List.drop_set_of_lt (by omega),
        List.take_succ_eq_append_getElem hposition, List.length_cons]
      have hset : (List.take position data.toList ++ [data.toList[position]]).set position b =
          List.take position data.toList ++ [b] := by
        rw [List.set_append_right _ _ (by rw [List.length_take]; omega), List.length_take,
          Nat.min_eq_left (by omega), Nat.sub_self]
        rfl
      rw [hset, List.append_assoc, List.append_assoc, List.append_assoc, List.singleton_append,
        Nat.add_comm rest.length 1, Nat.add_assoc]
      rfl

/-! ### The two ends -/

/-- `ofCapacity` holds nothing. -/
theorem live_ofCapacity (capacity : Nat) : (ofCapacity capacity).live = [] := by
  rw [live_eq]
  exact List.take_zero

/-- `compact` keeps the live bytes. -/
theorem live_compact (q : ByteQueue) : q.compact.live = q.live := by
  have hlength := q.length_live
  rw [live_eq, compact, toList_write]
  simp only [List.take_zero, List.nil_append, size, Nat.sub_zero, List.drop_zero]
  have hle : q.live.length ≤ q.stop - q.start := Nat.le_of_eq hlength
  have hge : q.stop - q.start ≤ q.live.length := Nat.le_of_eq hlength.symm
  rw [List.take_append_of_le_length hge, List.take_of_length_le hle]

/-- `enlarge` keeps the live bytes. -/
theorem live_enlarge (q : ByteQueue) (needed : Nat) : (q.enlarge needed).live = q.live := by
  have hstop := q.stop_le_size
  have hstart := q.start_le_stop
  rw [live_eq, live_eq, enlarge, Array.toList_append]
  simp only [size]
  rw [List.drop_append_of_le_length (by rw [Array.length_toList]; omega),
    List.take_append_of_le_length (by rw [List.length_drop, Array.length_toList]; omega)]

/-- `settle` keeps the live bytes. -/
theorem live_settle (q : ByteQueue) : q.settle.live = q.live := by
  unfold settle
  split
  · exact q.live_compact
  · rfl

/-- `reserve` keeps the live bytes. -/
theorem live_reserve (q : ByteQueue) (needed : Nat) : (q.reserve needed).live = q.live := by
  unfold reserve
  split
  · rfl
  · split
    · exact q.live_settle
    · rw [live_enlarge, live_settle]

/-- `write` behind the live bytes makes the new ones live when the queue ends behind them. -/
theorem take_drop_write (q : ByteQueue) (bytes : Bytes)
    (room : q.stop + bytes.length ≤ q.data.size) :
    ((write q.data q.stop bytes room).toList.drop q.start).take
      (q.stop + bytes.length - q.start) = q.live ++ bytes := by
  have hstart := q.start_le_stop
  have hlength : (q.data.toList.take q.stop).length = q.stop := by
    rw [List.length_take, Array.length_toList]
    omega
  rw [live_eq, toList_write, List.append_assoc, List.drop_append_of_le_length (by omega),
    ← List.append_assoc, List.take_append_of_le_length, List.take_of_length_le, List.drop_take,
    size]
  · rw [List.length_append, List.length_drop]
    omega
  · rw [List.length_append, List.length_drop]
    omega

/-- **`append` adds bytes behind the live ones.** -/
theorem live_append (q : ByteQueue) (bytes : Bytes) : (q.append bytes).live = q.live ++ bytes := by
  rw [← live_reserve q bytes.length, live_eq]
  exact (q.reserve bytes.length).take_drop_write bytes (q.stop_reserve_le bytes.length)

/-- **`consume` drops bytes from the front**, where there are as many. -/
theorem consume_ok (q : ByteQueue) {n : Nat} (h : n ≤ q.live.length) :
    ∃ q', q.consume n = .ok q' ∧ q'.live = q.live.drop n := by
  rw [length_live] at h
  rw [consume, dif_pos h]
  by_cases hall : q.start + n = q.stop
  · rw [if_pos hall]
    refine ⟨_, rfl, ?_⟩
    rw [List.drop_eq_nil_of_le (by rw [length_live, size]; omega), live_eq]
    exact List.take_zero
  · rw [if_neg hall]
    refine ⟨_, rfl, ?_⟩
    rw [live_eq, live_eq, List.drop_take, List.drop_drop]
    simp only [size]
    rw [Nat.sub_sub]

/-! ### Reading -/

/-- `get?` is a live byte by its offset. -/
theorem get?_eq (q : ByteQueue) (offset : Nat) : q.get? offset = q.live[offset]? := by
  rw [get?, live_eq, List.getElem?_take, List.getElem?_drop, Array.getElem?_toList]
  have hsize : offset < q.size ↔ q.start + offset < q.stop := by
    rw [size]
    omega
  by_cases h : q.start + offset < q.stop
  · rw [if_pos h, if_pos (hsize.2 h)]
  · rw [if_neg h, if_neg (fun hlt => h (hsize.1 hlt))]

/-- `slice` is the live bytes between two offsets. -/
theorem slice_ok (q : ByteQueue) {first last : Nat} (hle : first ≤ last)
    (hlast : last ≤ q.live.length) :
    q.slice first last = .ok ((q.live.drop first).take (last - first)) := by
  rw [length_live] at hlast
  rw [slice, if_pos ⟨hle, hlast⟩, live_eq, Array.toList_extract, List.extract_eq_take_drop,
    List.drop_take, List.drop_drop, List.take_take, Nat.add_sub_add_left,
    Nat.min_eq_left (by omega)]

/-- `crlfPosition?` in the array is `crlfIndex` of its bytes from the position on. -/
theorem crlfPosition?_eq (data : Array UInt8) (position steps : Nat) :
    crlfPosition? data position steps =
      (Bytes.crlfIndex ((data.toList.drop position).take (steps + 1))).map (· + position) := by
  induction steps generalizing position with
  | zero =>
      rw [crlfPosition?]
      cases data.toList.drop position with
      | nil => rfl
      | cons a rest => rfl
  | succ steps ih =>
      have hfirst : data[position]? = (data.toList.drop position)[0]? := by
        rw [List.getElem?_drop, Nat.add_zero, Array.getElem?_toList]
      have hsecond : data[position + 1]? = (data.toList.drop position)[1]? := by
        rw [List.getElem?_drop, Array.getElem?_toList]
      have hnext : data.toList.drop (position + 1) = (data.toList.drop position).drop 1 := by
        rw [List.drop_drop]
      rw [crlfPosition?, ih, hfirst, hsecond, hnext]
      match data.toList.drop position with
      | [] => simp [Bytes.crlfIndex]
      | [a] => simp [Bytes.crlfIndex]
      | a :: b :: rest =>
          by_cases hend : a = Bytes.carriageReturn ∧ b = Bytes.lineFeed
          · simp [Bytes.crlfIndex, hend.1, hend.2]
          · have hfirst : ¬ ((a :: b :: rest)[0]? = some Bytes.carriageReturn ∧
                (a :: b :: rest)[1]? = some Bytes.lineFeed) := by
              simpa using hend
            rw [if_neg hfirst, List.take_succ_cons, List.take_succ_cons, Bytes.crlfIndex,
              if_neg hend, Option.map_map]
            congr 1
            funext k
            simp only [Function.comp_apply]
            omega

/-- **`crlfOffset?` is `crlfIndex` of the live bytes.** -/
theorem crlfOffset?_eq (q : ByteQueue) : q.crlfOffset? = Bytes.crlfIndex q.live := by
  have hback : ∀ offset? : Option Nat,
      (offset?.map (· + q.start)).map (· - q.start) = offset? := by
    intro offset?
    rw [Option.map_map]
    cases offset? with
    | none => rfl
    | some k => simp
  rw [crlfOffset?, crlfPosition?_eq, hback, live_eq]
  by_cases hsize : q.size = 0
  · rw [hsize, List.take_zero]
    cases q.data.toList.drop q.start with
    | nil => rfl
    | cons a rest => rfl
  · rw [Nat.sub_add_cancel (Nat.one_le_iff_ne_zero.2 hsize)]

end ByteQueue

end KeyValueServer
