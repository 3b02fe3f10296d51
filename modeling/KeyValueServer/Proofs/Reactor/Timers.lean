import Mathlib.Data.List.Basic
import KeyValueServer.Proofs.Reactor.Callbacks

/-!
# The numbers of timers

A timer keeps its number and its kind for as long as it is there; only the time at which it falls
due changes. Numbers are given in order, each to one timer, and the timers stand in the order of
their numbers (`Reactor.Ordered`). So a number that has been given and is there no more does not
come back.

All of this is one relation between a loop and what becomes of it, `Reactor.Descends`. It holds for
each `Reactor.act`, and it composes.

## Main results

* `Reactor.Descends`: what becomes of a loop in which certain timers are created.
* `Reactor.descends_foldlM_act`, `Reactor.descends_settleTimer`: actions, and the end of a turn.
* `Reactor.Ordered.descends`: timers stay in the order of their numbers.
* `Reactor.Descends.mem_roster`, `Reactor.Ordered.notMem_roster_cancel`: a timer that has gone stays
  away.
-/

namespace KeyValueServer

namespace Reactor

variable {φ τ σ : Type} {r r' r₁ r₂ : Reactor φ τ} {made made₁ made₂ : List (Nat × TimerKind)}

/-- `r.roster` is the number and the kind of each timer, in the order of their creation. -/
def roster (r : Reactor φ τ) : List (Nat × TimerKind) :=
  r.timers.map fun timer => (timer.id, timer.kind)

/-- `r.starts action` are the timers that the action creates, by the numbers that are given out for
them. -/
def starts (r : Reactor φ τ) : Action φ τ → List (Nat × TimerKind)
  | .start kind interval tag now =>
    match r.start kind interval tag now with
    | .ok (id, _) => [(id, kind)]
    | .error _ => []
  | _ => []

/-- `r.created actions` are the timers that the actions create, as far as they can be carried
out. -/
def created (r : Reactor φ τ) : List (Action φ τ) → List (Nat × TimerKind)
  | [] => []
  | action :: rest =>
    match r.act action with
    | .ok r' => r.starts action ++ created r' rest
    | .error _ => []

/-- `Numbered first made`: the timers `made` have successive numbers from `first` on. -/
def Numbered (first : Nat) (made : List (Nat × TimerKind)) : Prop :=
  made.map Prod.fst = List.range' first made.length

/-- `Ordered r`: the timers stand in the order of their numbers, and all of these have been
given. -/
structure Ordered (r : Reactor φ τ) : Prop where
  /-- The numbers increase. -/
  increasing : (r.roster.map Prod.fst).Pairwise (· < ·)
  /-- They have been given. -/
  given : ∀ p ∈ r.roster, p.1 < r.nextId

/-- `Descends r made r'`: the loop `r` has become `r'`, and the timers `made` have been created on
the way. -/
structure Descends (r : Reactor φ τ) (made : List (Nat × TimerKind)) (r' : Reactor φ τ) :
    Prop where
  /-- The new timers have the next numbers. -/
  numbered : Numbered r.nextId made
  /-- The numbers of the new timers have been given. -/
  nextId_eq : r'.nextId = r.nextId + made.length
  /-- A timer is one of the old ones or one of the new ones. -/
  roster_sublist : r'.roster.Sublist (r.roster ++ made)
  /-- The loop does not go on once it is stopped. -/
  stopped : r.stopped = true → r'.stopped = true

/-! ### Successive numbers -/

variable {first : Nat} {p : Nat × TimerKind}

/-- `Numbered` of timers after others. -/
theorem Numbered.append (h₁ : Numbered first made₁)
    (h₂ : Numbered (first + made₁.length) made₂) : Numbered first (made₁ ++ made₂) := by
  rw [Numbered] at h₁ h₂ ⊢
  rw [List.map_append, h₁, h₂, List.length_append, List.range'_append_1]

/-- `Numbered` timers are in the range of their successive numbers. -/
theorem Numbered.le_and_lt (h : Numbered first made) (hp : p ∈ made) :
    first ≤ p.1 ∧ p.1 < first + made.length := by
  have hmem : p.1 ∈ made.map Prod.fst := List.mem_map_of_mem hp
  rw [h] at hmem
  exact List.mem_range'_1.1 hmem

/-! ### What becomes of a loop -/

/-- `Descends` where nothing is done. -/
theorem Descends.refl (r : Reactor φ τ) : Descends r [] r where
  numbered := rfl
  nextId_eq := rfl
  roster_sublist := by rw [List.append_nil]
  stopped := id

/-- `Descends` is transitive. -/
theorem Descends.trans (h₁ : Descends r made₁ r₁) (h₂ : Descends r₁ made₂ r₂) :
    Descends r (made₁ ++ made₂) r₂ where
  numbered := by
    have hnext := h₂.numbered
    rw [h₁.nextId_eq] at hnext
    exact h₁.numbered.append hnext
  nextId_eq := by rw [h₂.nextId_eq, h₁.nextId_eq, List.length_append, Nat.add_assoc]
  roster_sublist := by
    rw [← List.append_assoc]
    exact h₂.roster_sublist.trans (h₁.roster_sublist.append_right made₂)
  stopped := fun h => h₂.stopped (h₁.stopped h)

/-- `Descends` where no timer is created and some may have gone. -/
theorem Descends.of_sublist (hid : r'.nextId = r.nextId) (hroster : r'.roster.Sublist r.roster)
    (hstopped : r.stopped = true → r'.stopped = true) : Descends r [] r' where
  numbered := rfl
  nextId_eq := hid
  roster_sublist := by rwa [List.append_nil]
  stopped := hstopped

/-- **`Reactor.act` `Descends`** by the timers that the action `starts`. -/
theorem descends_act {action : Action φ τ} (h : r.act action = .ok r') :
    Descends r (r.starts action) r' := by
  cases action with
  | arm fd direction tag =>
      obtain rfl := Except.ok.inj h
      refine .of_sublist (r.nextId_arm fd direction tag) ?_ ?_
      · rw [roster, roster, timers_arm]
      · rw [stopped_arm]
        exact id
  | disarm fd direction =>
      obtain rfl := Except.ok.inj h
      refine .of_sublist (r.nextId_disarm fd direction) ?_ ?_
      · rw [roster, roster, timers_disarm]
      · rw [stopped_disarm]
        exact id
  | start kind interval tag now =>
      obtain ⟨⟨id, r₁⟩, hstart, h⟩ := Checked.bind_eq_ok_iff.1 h
      obtain rfl := Except.ok.inj h
      rw [starts, hstart]
      obtain ⟨due, -, hstart⟩ := Checked.bind_eq_ok_iff.1 hstart
      obtain ⟨rfl, rfl⟩ := Prod.mk.inj (Except.ok.inj hstart)
      exact {
        numbered := rfl
        nextId_eq := rfl
        roster_sublist := by
          rw [roster, List.map_append]
          exact .refl _
        stopped := fun h => h }
  | cancel id =>
      obtain rfl := Except.ok.inj h
      exact .of_sublist rfl (List.eraseP_sublist.map _) fun h => h
  | stop =>
      obtain rfl := Except.ok.inj h
      exact .of_sublist rfl (.refl _) fun _ => rfl

/-- **Actions descend, one after the other**, by the timers `created`. -/
theorem descends_foldlM_act {actions : List (Action φ τ)} (h : actions.foldlM act r = .ok r') :
    Descends r (r.created actions) r' := by
  induction actions generalizing r with
  | nil =>
      obtain rfl := Except.ok.inj h
      exact .refl r
  | cons action rest ih =>
      rw [List.foldlM_cons] at h
      obtain ⟨r₁, hact, hrest⟩ := Checked.bind_eq_ok_iff.1 h
      rw [created, hact]
      exact (descends_act hact).trans (ih hrest)

/-- `created` timers are `Numbered`, also where an action faults. -/
theorem numbered_created (r : Reactor φ τ) (actions : List (Action φ τ)) :
    Numbered r.nextId (r.created actions) := by
  induction actions generalizing r with
  | nil => rfl
  | cons action rest ih =>
      rw [created]
      cases hact : r.act action with
      | error fault => rfl
      | ok r₁ =>
          have hone := descends_act hact
          have hrest := ih r₁
          rw [hone.nextId_eq] at hrest
          exact hone.numbered.append hrest

/-- `reschedule` changes no number and no kind. -/
theorem roster_reschedule {id later : Nat} (h : r.reschedule id later = .ok r') :
    r'.roster = r.roster ∧ r'.nextId = r.nextId ∧ r'.stopped = r.stopped := by
  rw [reschedule] at h
  split at h
  · obtain rfl := Except.ok.inj h
    exact ⟨rfl, rfl, rfl⟩
  · obtain ⟨due, -, h⟩ := Checked.bind_eq_ok_iff.1 h
    obtain rfl := Except.ok.inj h
    refine ⟨?_, rfl, rfl⟩
    rw [roster, roster, List.map_map]
    refine List.map_congr_left fun timer _ => ?_
    dsimp only [Function.comp_apply]
    split <;> rfl

/-- **`settleTimer` creates no timer.** -/
theorem descends_settleTimer {kind : TimerKind} {id later : Nat}
    (h : r.settleTimer kind id later = .ok r') : Descends r [] r' := by
  cases kind with
  | once =>
      obtain rfl := Except.ok.inj h
      exact .of_sublist rfl (List.eraseP_sublist.map _) fun h => h
  | recurring =>
      obtain ⟨hroster, hid, hstopped⟩ := roster_reschedule h
      refine .of_sublist hid ?_ ?_
      · rw [hroster]
      · rw [hstopped]
        exact fun h => h

/-! ### The order of timers -/

/-- `Reactor.empty` is `Ordered`. -/
theorem ordered_empty : Ordered (.empty : Reactor φ τ) :=
  ⟨.nil, by simp [roster, empty]⟩

/-- **`Ordered` is kept** where the loop `Descends`. -/
theorem Ordered.descends (h : Ordered r) (hd : Descends r made r') : Ordered r' where
  increasing := by
    refine List.Pairwise.sublist (hd.roster_sublist.map Prod.fst) ?_
    rw [List.map_append, List.pairwise_append]
    refine ⟨h.increasing, ?_, ?_⟩
    · rw [hd.numbered]
      exact List.pairwise_lt_range'
    · intro a ha b hb
      obtain ⟨p, hp, rfl⟩ := List.mem_map.1 ha
      obtain ⟨q, hq, rfl⟩ := List.mem_map.1 hb
      have hold := h.given p hp
      have hnew := (hd.numbered.le_and_lt hq).1
      omega
  given := by
    intro p hp
    rw [hd.nextId_eq]
    rcases List.mem_append.1 (hd.roster_sublist.subset hp) with hp | hp
    · have hold := h.given p hp
      omega
    · exact (hd.numbered.le_and_lt hp).2

/-- A timer with a number that had been given is one of the old ones. -/
theorem Descends.mem_roster (h : Descends r made r') (hp : p ∈ r'.roster)
    (hlt : p.1 < r.nextId) : p ∈ r.roster := by
  rcases List.mem_append.1 (h.roster_sublist.subset hp) with hp | hp
  · exact hp
  · have hnew := (h.numbered.le_and_lt hp).1
    omega

/-- The timer of a number stands in the `roster`. -/
theorem mem_roster_of_timer? {id : Nat} {timer : Timer τ} (h : r.timer? id = some timer) :
    (id, timer.kind) ∈ r.roster := by
  have hid : timer.id = id := by simpa using List.find?_some h
  rw [← hid]
  exact List.mem_map_of_mem (List.mem_of_find?_eq_some h)

/-- `cancel` takes one number from the `roster`. -/
theorem map_fst_roster_cancel (r : Reactor φ τ) (id : Nat) :
    (r.cancel id).roster.map Prod.fst = (r.roster.map Prod.fst).erase id := by
  rw [roster, roster, List.map_map, List.map_map, List.erase_eq_eraseP', List.eraseP_map]
  rfl

/-- **A timer is not in the `roster` after `cancel`.** -/
theorem Ordered.notMem_roster_cancel (h : Ordered r) (id : Nat) (kind : TimerKind) :
    (id, kind) ∉ (r.cancel id).roster := by
  intro hmem
  -- only the first timer of that number is removed, but there is no second one
  have hnumber : id ∈ (r.roster.map Prod.fst).erase id := by
    rw [← map_fst_roster_cancel]
    exact List.mem_map_of_mem hmem
  have hnodup : (r.roster.map Prod.fst).Nodup := h.increasing.imp Nat.ne_of_lt
  exact (hnodup.mem_erase_iff.1 hnumber).1 rfl

end Reactor

end KeyValueServer
