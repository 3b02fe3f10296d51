import Mathlib.Data.List.Induction
import Mathlib.Data.List.Nodup
import KeyValueServer.Proofs.Reactor.Callbacks

/-!
# Arming and disarming, over any history

What a loop is armed for is settled by the calls of `Reactor.arm` and `Reactor.disarm`, and by their
order. A direction of a descriptor is armed if some call armed it and none disarmed it since
(`Registration.Armed`), and its tag is that of the first such call (`Registration.ArmedFirst`):
arming again is idle until the direction has been disarmed.

A registration with nothing left in it would still be polled, and a poll reports a hang-up whether
or not it was asked for anything. That no such registration is ever kept is an invariant here
(`Reactor.Tidy`), and it is also why disarming what is not armed leaves the loop as it is, rather
than leaving it armed for the same.

## Main results

* `Reactor.tag?_arm`, `Reactor.tag?_disarm`: what one call does to every tag.
* `Reactor.tidy_registered`: no empty registration is kept.
* `Reactor.registrations_exact`: what is armed, under which tag, and what is polled.
-/

namespace KeyValueServer

/-! ### Registries -/

namespace Registry

variable {α : Type} {a : α} {fd : Descriptor} {r : Registry α}

/-- `put` of what is kept already changes nothing. -/
theorem put_of_get? (h : r.get? fd = some a) : r.put fd a = r := by
  induction r with
  | nil => cases h
  | cons pair rest ih =>
      obtain ⟨fd', a'⟩ := pair
      rw [get?] at h
      rw [put]
      by_cases hfd : fd' = fd
      · rw [if_pos hfd, Option.some.injEq] at h
        rw [if_pos hfd, hfd, h]
      · rw [if_neg hfd] at h
        rw [if_neg hfd, ih h]

/-- `put` keeps one pair for a descriptor. -/
theorem nodup_descriptors_put (h : r.descriptors.Nodup) : (r.put fd a).descriptors.Nodup := by
  induction r with
  | nil => exact List.nodup_singleton _
  | cons pair rest ih =>
      obtain ⟨fd', a'⟩ := pair
      have hcons : (fd' :: descriptors rest).Nodup := h
      obtain ⟨hfree, hrest⟩ := List.nodup_cons.mp hcons
      rw [put]
      by_cases hfd : fd' = fd
      · rw [if_pos hfd]
        exact List.nodup_cons.mpr ⟨hfd ▸ hfree, hrest⟩
      · rw [if_neg hfd]
        refine List.nodup_cons.mpr ⟨?_, ih hrest⟩
        have hget : get? fd' (put fd a rest) = get? fd' rest := get?_put_of_ne hfd _ _
        rw [← descriptors, mem_descriptors_iff, hget, ← mem_descriptors_iff]
        exact hfree

/-- `erase` keeps one pair for a descriptor. -/
theorem nodup_descriptors_erase (h : r.descriptors.Nodup) : (r.erase fd).descriptors.Nodup :=
  h.sublist (List.filter_sublist.map _)

/-- The pairs are what `get?` finds, where there is one for a descriptor. -/
theorem mem_iff_get? (h : r.descriptors.Nodup) : (fd, a) ∈ r ↔ r.get? fd = some a := by
  induction r with
  | nil => simp [get?]
  | cons pair rest ih =>
      obtain ⟨fd', a'⟩ := pair
      have hcons : (fd' :: descriptors rest).Nodup := h
      obtain ⟨hfree, hrest⟩ := List.nodup_cons.mp hcons
      rw [List.mem_cons, ih hrest, get?]
      by_cases hfd : fd' = fd
      · subst hfd
        have hnone : get? fd' rest = none := by
          by_contra hsome
          exact hfree (mem_descriptors_iff.mpr hsome)
        simp [hnone, eq_comm]
      · simp [hfd, Ne.symm hfd]

end Registry

/-! ### One descriptor -/

/-- `PollFlags` are what a poll is asked about a descriptor. -/
structure PollFlags where
  /-- Whether there is something to read. -/
  input : Bool
  /-- Whether there is room to write. -/
  output : Bool
  deriving DecidableEq

namespace Interest

variable {φ : Type} {i : Interest φ} {interest? : Option (Interest φ)} {tag : φ}
  {direction direction' : Direction}

/-- `i.pollFlags` is what a poll is asked about a descriptor that is armed for `i`. -/
def pollFlags (i : Interest φ) : PollFlags :=
  ⟨(i.get? .readable).isSome, (i.get? .writable).isSome⟩

/-- `Interest.set` of one direction leaves the other one. -/
theorem get?_set (tag? : Option φ) : (i.set direction tag?).get? direction' =
    if direction' = direction then tag? else i.get? direction' := by
  cases direction <;> cases direction' <;> rfl

/-- `Interest.set` of a tag that is set already changes nothing. -/
theorem set_get? : i.set direction (i.get? direction) = i := by
  cases direction <;> rfl

/-- `isNone` says that there is no tag for any direction. -/
theorem isNone_iff : i.isNone = true ↔ ∀ direction, i.get? direction = .none := by
  rw [isNone, Bool.and_eq_true, Option.isNone_iff_eq_none, Option.isNone_iff_eq_none]
  constructor
  · rintro ⟨hread, hwrite⟩ direction
    cases direction
    · exact hread
    · exact hwrite
  · intro h
    exact ⟨h .readable, h .writable⟩

/-- No interest at all has the same tags as `Interest.none`. -/
theorem bind_get? : interest?.bind (·.get? direction) = (interest?.getD none).get? direction := by
  cases interest? with
  | none => cases direction <;> rfl
  | some i => rfl

/-- `armed` gives a tag to one direction unless it has one. -/
theorem get?_armed : (armed interest? direction tag).get? direction' =
    if direction' = direction then some ((interest?.bind (·.get? direction)).getD tag)
    else interest?.bind (·.get? direction') := by
  rw [bind_get?, bind_get?, armed]
  generalize interest?.getD none = i
  cases htag : i.get? direction with
  | none =>
      rw [if_pos Option.isNone_none, get?_set]
      rfl
  | some tag' =>
      rw [if_neg (by simp), Option.getD_some]
      by_cases hdirection : direction' = direction
      · rw [if_pos hdirection, hdirection, htag]
      · rw [if_neg hdirection]

/-- `disarmed` takes the tag from one direction. -/
theorem disarmed_bind_get? : (disarmed interest? direction).bind (·.get? direction') =
    if direction' = direction then .none else interest?.bind (·.get? direction') := by
  cases interest? with
  | none => exact (ite_self _).symm
  | some i =>
      have hset : (disarmed (some i) direction).bind (·.get? direction') =
          (i.set direction .none).get? direction' := by
        rw [disarmed, Option.bind_some]
        by_cases hlast : (i.set direction .none).isNone = true
        · rw [if_pos hlast, isNone_iff.mp hlast direction', Option.bind_none]
        · rw [if_neg hlast, Option.bind_some]
      rw [hset, get?_set, Option.bind_some]

end Interest

namespace Reactor

variable {φ τ : Type} {r : Reactor φ τ} {fd fd' : Descriptor} {direction direction' : Direction}
  {tag tag' : φ}

/-! ### One call -/

/-- **`Reactor.arm` gives a tag to one direction of one descriptor, unless it has one.** -/
theorem tag?_arm : (r.arm fd direction tag).tag? fd' direction' =
    if fd' = fd ∧ direction' = direction then some ((r.tag? fd direction).getD tag)
    else r.tag? fd' direction' := by
  rw [tag?, get?_interests_arm]
  by_cases hfd : fd' = fd
  · subst hfd
    rw [if_pos rfl, Option.bind_some, Interest.get?_armed]
    simp only [true_and]
    rfl
  · rw [if_neg hfd, if_neg fun h => hfd h.1, tag?]

/-- **`Reactor.disarm` takes the tag from one direction of one descriptor.** -/
theorem tag?_disarm : (r.disarm fd direction).tag? fd' direction' =
    if fd' = fd ∧ direction' = direction then none else r.tag? fd' direction' := by
  rw [tag?, get?_interests_disarm]
  by_cases hfd : fd' = fd
  · subst hfd
    rw [if_pos rfl, Interest.disarmed_bind_get?]
    simp only [true_and]
    rfl
  · rw [if_neg hfd, if_neg fun h => hfd h.1, tag?]

/-- `Reactor.arm` leaves the loop as it is where the direction is armed. -/
theorem arm_of_isArmed (h : r.isArmed fd direction = true) : r.arm fd direction tag = r := by
  rw [isArmed, tag?] at h
  rw [arm]
  cases hinterest : r.interests.get? fd with
  | none =>
      rw [hinterest] at h
      cases h
  | some interest =>
      rw [hinterest, Option.bind_some] at h
      dsimp only
      rw [if_neg (by simpa [Option.isSome_iff_ne_none] using h)]

/-! ### No empty registration -/

/-- `r.Tidy`: the loop keeps at most one registration for a descriptor, and none that is empty. -/
structure Tidy (r : Reactor φ τ) : Prop where
  /-- There is one registration for a descriptor. -/
  nodup : r.interests.descriptors.Nodup
  /-- A descriptor for which there is a registration is armed for something. -/
  armed : ∀ fd interest, r.interests.get? fd = some interest → interest.isNone = false

/-- `Reactor.arm` keeps the loop `Tidy`. -/
theorem Tidy.arm (h : r.Tidy) : (r.arm fd direction tag).Tidy where
  nodup := by
    rw [Reactor.arm]
    split
    · split
      · exact Registry.nodup_descriptors_put h.nodup
      · exact h.nodup
    · exact Registry.nodup_descriptors_put h.nodup
  armed := by
    intro fd' interest hinterest
    rw [get?_interests_arm] at hinterest
    split at hinterest
    · obtain rfl := Option.some.inj hinterest
      rw [← Bool.not_eq_true, Interest.isNone_iff]
      intro hnone
      have htag := hnone direction
      rw [Interest.get?_armed, if_pos rfl] at htag
      cases htag
    · exact h.armed fd' interest hinterest

/-- `Reactor.disarm` keeps the loop `Tidy`. -/
theorem Tidy.disarm (h : r.Tidy) : (r.disarm fd direction).Tidy where
  nodup := by
    rw [Reactor.disarm]
    split
    · split
      · exact Registry.nodup_descriptors_erase h.nodup
      · exact Registry.nodup_descriptors_put h.nodup
    · exact h.nodup
  armed := by
    intro fd' interest hinterest
    rw [get?_interests_disarm] at hinterest
    split at hinterest
    · obtain ⟨before, -, hdisarmed⟩ := Option.bind_eq_some_iff.mp hinterest
      split at hdisarmed
      · cases hdisarmed
      · rename_i hleft
        rw [Bool.not_eq_true] at hleft
        exact Option.some.inj hdisarmed ▸ hleft
    · exact h.armed fd' interest hinterest

/-- `Reactor.disarm` leaves a `Tidy` loop as it is where the direction is not armed. -/
theorem Tidy.disarm_of_not_isArmed (h : r.Tidy) (hfree : r.isArmed fd direction = false) :
    r.disarm fd direction = r := by
  rw [isArmed, tag?, Option.isSome_eq_false_iff, Option.isNone_iff_eq_none] at hfree
  rw [Reactor.disarm]
  cases hinterest : r.interests.get? fd with
  | none => rfl
  | some interest =>
      rw [hinterest, Option.bind_some] at hfree
      have hset : interest.set direction none = interest := by
        rw [← hfree]
        exact Interest.set_get?
      dsimp only
      rw [hset, if_neg (by rw [h.armed fd interest hinterest]; exact Bool.false_ne_true),
        Registry.put_of_get? hinterest]

/-! ### What is polled -/

/-- `r.pollSet` are the descriptors that a poll is asked about, and what it is asked about each. -/
def pollSet (r : Reactor φ τ) : List (Descriptor × PollFlags) :=
  r.interests.map fun (fd, interest) => (fd, interest.pollFlags)

/-- The descriptors of `pollSet` are those for which there is a registration. -/
theorem map_fst_pollSet : r.pollSet.map (·.1) = r.interests.descriptors := by
  rw [pollSet, List.map_map]
  rfl

/-- **A descriptor of a `Tidy` loop is in `pollSet` if it is armed for something, and for all that
it is armed for.** -/
theorem Tidy.mem_pollSet_iff (h : r.Tidy) {flags : PollFlags} : (fd, flags) ∈ r.pollSet ↔
    (∃ direction, r.isArmed fd direction = true) ∧
      flags = ⟨r.isArmed fd .readable, r.isArmed fd .writable⟩ := by
  have hflags : ∀ interest, r.interests.get? fd = some interest →
      interest.pollFlags = ⟨r.isArmed fd .readable, r.isArmed fd .writable⟩ := by
    intro interest hinterest
    rw [isArmed, isArmed, tag?, tag?, hinterest]
    rfl
  rw [pollSet, List.mem_map]
  constructor
  · rintro ⟨⟨fd', interest⟩, hmem, hpair⟩
    obtain ⟨rfl, rfl⟩ := Prod.mk.inj hpair
    have hinterest := (Registry.mem_iff_get? h.nodup).mp hmem
    refine ⟨?_, hflags interest hinterest⟩
    by_contra hnone
    have hempty : interest.isNone = true := by
      refine Interest.isNone_iff.mpr fun direction => ?_
      have hfree : ¬ r.isArmed fd' direction = true := fun harmed => hnone ⟨direction, harmed⟩
      rw [isArmed, tag?, hinterest, Option.bind_some] at hfree
      simpa using hfree
    rw [h.armed fd' interest hinterest] at hempty
    cases hempty
  · rintro ⟨⟨direction, harmed⟩, rfl⟩
    rw [isArmed, tag?] at harmed
    obtain ⟨tag, htag⟩ := Option.isSome_iff_exists.mp harmed
    obtain ⟨interest, hinterest, -⟩ := Option.bind_eq_some_iff.mp htag
    refine ⟨(fd, interest), (Registry.mem_iff_get? h.nodup).mpr hinterest, ?_⟩
    exact congrArg (Prod.mk fd) (hflags interest hinterest)

end Reactor

/-! ### Histories -/

/-- A `Registration` is a call that changes what a loop is armed for. -/
inductive Registration (φ : Type)
  | arm (fd : Descriptor) (direction : Direction) (tag : φ)
  | disarm (fd : Descriptor) (direction : Direction)

namespace Registration

variable {φ : Type} {calls front : List (Registration φ)} {call : Registration φ}
  {fd : Descriptor} {direction : Direction} {tag : φ}

/-- `call.subject` is the descriptor and the direction that a call is about. -/
def subject : Registration φ → Descriptor × Direction
  | .arm fd direction _ => (fd, direction)
  | .disarm fd direction => (fd, direction)

/-- `Stands calls front fd direction tag`: right after `front`, the calls arm the direction, and
they do not disarm it any more. -/
def Stands (calls front : List (Registration φ)) (fd : Descriptor) (direction : Direction)
    (tag : φ) : Prop :=
  ∃ back, calls = front ++ .arm fd direction tag :: back ∧ .disarm fd direction ∉ back

/-- `Armed calls fd direction`: the calls arm the direction and do not disarm it any more. -/
def Armed (calls : List (Registration φ)) (fd : Descriptor) (direction : Direction) : Prop :=
  ∃ front tag, Stands calls front fd direction tag

/-- `ArmedFirst calls fd direction tag`: the calls arm the direction under `tag` when it is not
armed, and do not disarm it any more. -/
def ArmedFirst (calls : List (Registration φ)) (fd : Descriptor) (direction : Direction)
    (tag : φ) : Prop :=
  ∃ front, Stands calls front fd direction tag ∧ ¬ Armed front fd direction

/-- Nothing is `Armed` without a call. -/
theorem not_armed_nil : ¬ Armed ([] : List (Registration φ)) fd direction := by
  rintro ⟨front, tag, back, hsplit, -⟩
  simp at hsplit

/-- `Stands` with one call more: it arms the direction, or it does not disarm it and some earlier
call has armed it. -/
theorem stands_append_singleton : Stands (calls ++ [call]) front fd direction tag ↔
    call = .arm fd direction tag ∧ front = calls ∨
      call ≠ .disarm fd direction ∧ Stands calls front fd direction tag := by
  constructor
  · rintro ⟨back, hsplit, hback⟩
    induction back using List.reverseRecOn with
    | nil =>
        obtain ⟨rfl, hcall⟩ := List.append_inj' hsplit rfl
        exact .inl ⟨(List.cons.inj hcall).1, rfl⟩
    | append_singleton back last _ =>
        rw [← List.cons_append, ← List.append_assoc] at hsplit
        obtain ⟨rfl, hcall⟩ := List.append_inj' hsplit rfl
        obtain rfl : call = last := (List.cons.inj hcall).1
        refine .inr ⟨?_, back, rfl, fun hmem => hback (List.mem_append_left _ hmem)⟩
        rintro rfl
        exact hback (List.mem_append_right _ (List.mem_singleton.mpr rfl))
  · rintro (⟨rfl, rfl⟩ | ⟨hcall, back, rfl, hback⟩)
    · exact ⟨[], rfl, List.not_mem_nil⟩
    · refine ⟨back ++ [call], by simp, fun hmem => ?_⟩
      rcases List.mem_append.mp hmem with hmem | hmem
      · exact hback hmem
      · exact hcall (List.mem_singleton.mp hmem).symm

/-- `Armed` with one call more: it arms the direction, or that was armed and is not disarmed. -/
theorem armed_append_singleton : Armed (calls ++ [call]) fd direction ↔
    (∃ tag, call = .arm fd direction tag) ∨
      call ≠ .disarm fd direction ∧ Armed calls fd direction := by
  simp only [Armed, stands_append_singleton]
  constructor
  · rintro ⟨front, tag, ⟨hcall, -⟩ | ⟨hcall, hstands⟩⟩
    · exact .inl ⟨tag, hcall⟩
    · exact .inr ⟨hcall, front, tag, hstands⟩
  · rintro (⟨tag, hcall⟩ | ⟨hcall, front, tag, hstands⟩)
    · exact ⟨calls, tag, .inl ⟨hcall, rfl⟩⟩
    · exact ⟨front, tag, .inr ⟨hcall, hstands⟩⟩

/-- `ArmedFirst` with one call more: it arms the direction, which was not armed before, or the call
that armed it first stays the one that it was. -/
theorem armedFirst_append_singleton : ArmedFirst (calls ++ [call]) fd direction tag ↔
    call = .arm fd direction tag ∧ ¬ Armed calls fd direction ∨
      call ≠ .disarm fd direction ∧ ArmedFirst calls fd direction tag := by
  simp only [ArmedFirst, stands_append_singleton]
  constructor
  · rintro ⟨front, ⟨hcall, rfl⟩ | ⟨hcall, hstands⟩, hfirst⟩
    · exact .inl ⟨hcall, hfirst⟩
    · exact .inr ⟨hcall, front, hstands, hfirst⟩
  · rintro (⟨hcall, hfirst⟩ | ⟨hcall, front, hstands, hfirst⟩)
    · exact ⟨calls, .inl ⟨hcall, rfl⟩, hfirst⟩
    · exact ⟨front, .inr ⟨hcall, hstands⟩, hfirst⟩

/-- A call on another `subject` neither arms the direction nor disarms it. -/
theorem ne_of_subject_ne (h : call.subject ≠ (fd, direction)) :
    (∀ tag, call ≠ .arm fd direction tag) ∧ call ≠ .disarm fd direction := by
  refine ⟨?_, ?_⟩
  · rintro tag rfl
    exact h rfl
  · rintro rfl
    exact h rfl

/-- A call on another `subject` leaves what is `Armed`. -/
theorem armed_append_of_subject_ne (h : call.subject ≠ (fd, direction)) :
    Armed (calls ++ [call]) fd direction ↔ Armed calls fd direction := by
  obtain ⟨harm, hdisarm⟩ := ne_of_subject_ne h
  rw [armed_append_singleton]
  simp [harm, hdisarm]

/-- A call on another `subject` leaves what is `ArmedFirst`. -/
theorem armedFirst_append_of_subject_ne (h : call.subject ≠ (fd, direction)) :
    ArmedFirst (calls ++ [call]) fd direction tag ↔ ArmedFirst calls fd direction tag := by
  obtain ⟨harm, hdisarm⟩ := ne_of_subject_ne h
  rw [armedFirst_append_singleton]
  simp [harm, hdisarm]

end Registration

namespace Reactor

variable {φ τ : Type} {fd : Descriptor} {direction : Direction} {tag : φ}

/-- `r.register call` is the loop after a call. -/
def register (r : Reactor φ τ) : Registration φ → Reactor φ τ
  | .arm fd direction tag => r.arm fd direction tag
  | .disarm fd direction => r.disarm fd direction

/-- `registered calls` is the loop after calls, from one without registrations. -/
def registered (calls : List (Registration φ)) : Reactor φ τ :=
  calls.foldl register empty

/-- `registered` makes the last call on the loop that the others lead to. -/
theorem registered_append_singleton (calls : List (Registration φ)) (call : Registration φ) :
    (registered (calls ++ [call]) : Reactor φ τ) = (registered calls).register call := by
  rw [registered, List.foldl_append]
  rfl

/-- **`registered` is `Tidy`**: no empty registration is kept. -/
theorem tidy_registered (calls : List (Registration φ)) :
    (registered calls : Reactor φ τ).Tidy := by
  induction calls using List.reverseRecOn with
  | nil => exact ⟨List.nodup_nil, nofun⟩
  | append_singleton calls call ih =>
      rw [registered_append_singleton]
      cases call with
      | arm fd direction tag => exact ih.arm
      | disarm fd direction => exact ih.disarm

/-- **A call leaves every direction that is not its `subject`.** -/
theorem tag?_register_of_ne {r : Reactor φ τ} {call : Registration φ}
    (h : call.subject ≠ (fd, direction)) :
    (r.register call).tag? fd direction = r.tag? fd direction := by
  have hother : ¬ (fd = call.subject.1 ∧ direction = call.subject.2) := by
    rintro ⟨rfl, rfl⟩
    exact h rfl
  cases call with
  | arm fd' direction' tag => exact tag?_arm.trans (if_neg hother)
  | disarm fd' direction' => exact tag?_disarm.trans (if_neg hother)

/-- A direction has no `tag?` if it is not armed. -/
theorem tag?_eq_none_iff {r : Reactor φ τ} :
    r.tag? fd direction = none ↔ ¬ r.isArmed fd direction = true := by
  rw [isArmed, Bool.not_eq_true, Option.isSome_eq_false_iff, Option.isNone_iff_eq_none]

/-- **What is armed in `registered calls` is what is `Armed` by the calls.** -/
theorem isArmed_registered_iff (calls : List (Registration φ)) :
    (registered calls : Reactor φ τ).isArmed fd direction = true ↔
      Registration.Armed calls fd direction := by
  induction calls using List.reverseRecOn with
  | nil => exact iff_of_false nofun Registration.not_armed_nil
  | append_singleton calls call ih =>
      rw [registered_append_singleton, isArmed]
      by_cases hsubject : call.subject = (fd, direction)
      · rw [Registration.armed_append_singleton]
        cases call with
        | arm fd' direction' tag =>
            obtain ⟨rfl, rfl⟩ := Prod.mk.inj hsubject
            rw [register, tag?_arm, if_pos ⟨rfl, rfl⟩]
            exact iff_of_true rfl (.inl ⟨tag, rfl⟩)
        | disarm fd' direction' =>
            obtain ⟨rfl, rfl⟩ := Prod.mk.inj hsubject
            rw [register, tag?_disarm, if_pos ⟨rfl, rfl⟩]
            exact iff_of_false nofun (by simp)
      · rw [tag?_register_of_ne hsubject, Registration.armed_append_of_subject_ne hsubject, ← ih,
          isArmed]

/-- **The tag in `registered calls` is that of `ArmedFirst`**: of the first call that armed the
direction since it was last disarmed. -/
theorem tag?_registered_iff (calls : List (Registration φ)) :
    (registered calls : Reactor φ τ).tag? fd direction = some tag ↔
      Registration.ArmedFirst calls fd direction tag := by
  induction calls using List.reverseRecOn with
  | nil =>
      refine iff_of_false nofun ?_
      rintro ⟨front, hstands, -⟩
      exact Registration.not_armed_nil ⟨front, tag, hstands⟩
  | append_singleton calls call ih =>
      rw [registered_append_singleton]
      by_cases hsubject : call.subject = (fd, direction)
      · rw [Registration.armedFirst_append_singleton]
        cases call with
        | arm fd' direction' tag' =>
            obtain ⟨rfl, rfl⟩ := Prod.mk.inj hsubject
            rw [register, tag?_arm, if_pos ⟨rfl, rfl⟩, ← ih, ← isArmed_registered_iff,
              ← tag?_eq_none_iff (τ := τ)]
            cases htag : (registered calls : Reactor φ τ).tag? fd' direction' with
            | none => simp
            | some first => simp
        | disarm fd' direction' =>
            obtain ⟨rfl, rfl⟩ := Prod.mk.inj hsubject
            rw [register, tag?_disarm, if_pos ⟨rfl, rfl⟩]
            exact iff_of_false nofun (by simp)
      · rw [tag?_register_of_ne hsubject, Registration.armedFirst_append_of_subject_ne hsubject, ih]

/-- `r.Reflects calls`: what the loop is armed for is what the calls make of it. -/
structure Reflects (r : Reactor φ τ) (calls : List (Registration φ)) : Prop where
  /-- A direction is armed if and only if it was armed and has not been disarmed since. -/
  isArmed_iff : ∀ fd direction, r.isArmed fd direction = true ↔
    Registration.Armed calls fd direction
  /-- The tag in force is that of the first call that armed the direction since. -/
  tag?_iff : ∀ fd direction tag, r.tag? fd direction = some tag ↔
    Registration.ArmedFirst calls fd direction tag
  /-- Arming what is armed changes nothing, under whatever tag. -/
  arm_idle : ∀ fd direction tag, r.isArmed fd direction = true → r.arm fd direction tag = r
  /-- Disarming what is not armed changes nothing. -/
  disarm_idle : ∀ fd direction, r.isArmed fd direction = false → r.disarm fd direction = r
  /-- A call leaves the other direction of its descriptor, and both of any other descriptor. -/
  frame : ∀ call fd direction, call.subject ≠ (fd, direction) →
    (r.register call).tag? fd direction = r.tag? fd direction
  /-- No descriptor is polled twice. -/
  nodup : (r.pollSet.map (·.1)).Nodup
  /-- A descriptor is polled if and only if it is armed for something, and for just that. -/
  mem_pollSet_iff : ∀ fd flags, (fd, flags) ∈ r.pollSet ↔
    (∃ direction, r.isArmed fd direction = true) ∧
      flags = ⟨r.isArmed fd .readable, r.isArmed fd .writable⟩

/-- **`registered calls` `Reflects` the calls**: what is armed, under which tag, and what is polled
is settled by them. -/
theorem registrations_exact (calls : List (Registration φ)) :
    (registered calls : Reactor φ τ).Reflects calls where
  isArmed_iff _ _ := isArmed_registered_iff calls
  tag?_iff _ _ _ := tag?_registered_iff calls
  arm_idle _ _ _ := arm_of_isArmed
  disarm_idle _ _ := (tidy_registered calls).disarm_of_not_isArmed
  frame _ _ _ := tag?_register_of_ne
  nodup := by
    rw [map_fst_pollSet]
    exact (tidy_registered calls).nodup
  mem_pollSet_iff _ _ := (tidy_registered calls).mem_pollSet_iff

/-- The first tag stands until the direction is disarmed, and then another one may. -/
example : (registered [.arm 5 .readable 1, .arm 5 .readable 2, .disarm 5 .readable,
    .arm 5 .readable 3, .arm 5 .writable 4, .disarm 6 .writable] : Reactor Nat Nat).interests =
      [(5, ⟨some 3, some 4⟩)] := rfl

end Reactor

end KeyValueServer
