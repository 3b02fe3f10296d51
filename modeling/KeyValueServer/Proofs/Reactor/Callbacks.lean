import KeyValueServer.Proofs.Checked
import KeyValueServer.Reactor.Rounds

/-!
# Registrations and callbacks of the event loop

`Reactor.arm` and `Reactor.disarm` change what one descriptor is armed for, and nothing else. A
callback is made for what is registered when its turn comes (`Reactor.Fires`); its handler's actions
are carried out, and a timer is settled. Whatever the polls report and the clocks show, a round is a
chain of callbacks and so are any number of rounds. What each callback keeps is therefore kept by
the loop.

## Main results

* `Reactor.get?_interests_arm`, `Reactor.get?_interests_disarm`: interests in one descriptor.
* `Reactor.Fires`, `Reactor.FiresAll`: one callback, and a chain of them.
* `Reactor.firesAll_process`, `Reactor.firesAll_run`: the loop makes a chain of callbacks.
-/

namespace KeyValueServer

/-! ### Registries -/

namespace Registry

variable {α : Type}

/-- `descriptors` are those for which `get?` finds something. -/
theorem mem_descriptors_iff {r : Registry α} {fd : Descriptor} :
    fd ∈ r.descriptors ↔ r.get? fd ≠ none := by
  induction r with
  | nil => simp [descriptors, get?]
  | cons pair rest ih =>
      obtain ⟨fd', a⟩ := pair
      rw [descriptors] at ih
      rw [descriptors, List.map_cons, List.mem_cons, ih, get?]
      by_cases h : fd' = fd
      · simp [h]
      · simp [h, Ne.symm h]

end Registry

/-! ### Interests -/

namespace Interest

variable {φ : Type}

/-- `armed interest? direction tag` is what a descriptor is armed for after it has been armed for
one direction more. -/
def armed (interest? : Option (Interest φ)) (direction : Direction) (tag : φ) : Interest φ :=
  let interest := interest?.getD .none
  if (interest.get? direction).isNone then interest.set direction (some tag) else interest

/-- `disarmed interest? direction` is what a descriptor is armed for after it has been disarmed for
one direction, if anything. -/
def disarmed (interest? : Option (Interest φ)) (direction : Direction) : Option (Interest φ) :=
  interest?.bind fun interest =>
    if (interest.set direction .none).isNone then .none else some (interest.set direction .none)

end Interest

namespace Reactor

variable {φ τ σ : Type} {r r' r₁ r₂ : Reactor φ τ}

/-- **`Reactor.arm` changes what one descriptor is armed for.** -/
theorem get?_interests_arm (r : Reactor φ τ) (fd fd' : Descriptor) (direction : Direction)
    (tag : φ) :
    (r.arm fd direction tag).interests.get? fd' =
      if fd' = fd then some (Interest.armed (r.interests.get? fd) direction tag)
      else r.interests.get? fd' := by
  rw [arm]
  cases hinterest : r.interests.get? fd with
  | none =>
      dsimp only
      rw [Registry.get?_put]
      cases direction <;> rfl
  | some interest =>
      dsimp only [Interest.armed, Option.getD_some]
      by_cases hfree : (interest.get? direction).isNone = true
      · rw [if_pos hfree, if_pos hfree]
        exact Registry.get?_put ..
      · rw [if_neg hfree, if_neg hfree]
        split
        · rename_i hfd
          rw [hfd, hinterest]
        · rfl

/-- **`Reactor.disarm` changes what one descriptor is armed for.** -/
theorem get?_interests_disarm (r : Reactor φ τ) (fd fd' : Descriptor) (direction : Direction) :
    (r.disarm fd direction).interests.get? fd' =
      if fd' = fd then Interest.disarmed (r.interests.get? fd) direction
      else r.interests.get? fd' := by
  rw [disarm]
  cases hinterest : r.interests.get? fd with
  | none =>
      dsimp only
      split
      · rename_i hfd
        rw [hfd, hinterest]
        rfl
      · rfl
  | some interest =>
      dsimp only [Interest.disarmed, Option.bind_some]
      by_cases hlast : (interest.set direction none).isNone = true
      · rw [if_pos hlast, if_pos hlast]
        exact Registry.get?_erase ..
      · rw [if_neg hlast, if_neg hlast]
        exact Registry.get?_put ..

/-- `Reactor.arm` leaves the timers. -/
@[simp] theorem timers_arm (r : Reactor φ τ) (fd : Descriptor) (direction : Direction) (tag : φ) :
    (r.arm fd direction tag).timers = r.timers := by
  rw [arm]
  split
  · split <;> rfl
  · rfl

/-- `Reactor.disarm` leaves the timers. -/
@[simp] theorem timers_disarm (r : Reactor φ τ) (fd : Descriptor) (direction : Direction) :
    (r.disarm fd direction).timers = r.timers := by
  rw [disarm]
  split
  · split <;> rfl
  · rfl

/-- `Reactor.arm` gives no number to a timer. -/
@[simp] theorem nextId_arm (r : Reactor φ τ) (fd : Descriptor) (direction : Direction) (tag : φ) :
    (r.arm fd direction tag).nextId = r.nextId := by
  rw [arm]
  split
  · split <;> rfl
  · rfl

/-- `Reactor.disarm` gives no number to a timer. -/
@[simp] theorem nextId_disarm (r : Reactor φ τ) (fd : Descriptor) (direction : Direction) :
    (r.disarm fd direction).nextId = r.nextId := by
  rw [disarm]
  split
  · split <;> rfl
  · rfl

/-- `Reactor.arm` does not stop the loop. -/
@[simp] theorem stopped_arm (r : Reactor φ τ) (fd : Descriptor) (direction : Direction) (tag : φ) :
    (r.arm fd direction tag).stopped = r.stopped := by
  rw [arm]
  split
  · split <;> rfl
  · rfl

/-- `Reactor.disarm` does not stop the loop. -/
@[simp] theorem stopped_disarm (r : Reactor φ τ) (fd : Descriptor) (direction : Direction) :
    (r.disarm fd direction).stopped = r.stopped := by
  rw [disarm]
  split
  · split <;> rfl
  · rfl

/-! ### Callbacks -/

variable {handler : Handler φ τ σ} {s s' s₁ s₂ : σ} {event : Fired φ τ}
  {events events' : List (Fired φ τ)}

/-- `Fires handler r s event r' s'`: from the loop `r` and the state `s`, the callback for `event`
leads to `r'` and `s'`. What fires is registered, for a timer at any reading of the clock at which
it is settled. -/
inductive Fires (handler : Handler φ τ σ) (r : Reactor φ τ) (s : σ) :
    Fired φ τ → Reactor φ τ → σ → Prop
  | timer {id later : Nat} {timer : Timer τ} {actions : List (Action φ τ)} {s' : σ}
      {r₁ r' : Reactor φ τ} (htimer : r.timer? id = some timer)
      (hhandler : handler (.timer id timer.tag) r s = .ok (actions, s'))
      (hact : actions.foldlM act r = .ok r₁)
      (hsettle : r₁.settleTimer timer.kind id later = .ok r') :
      Fires handler r s (.timer id timer.tag) r' s'
  | descriptor {fd : Descriptor} {direction : Direction} {tag : φ} {actions : List (Action φ τ)}
      {s' : σ} {r' : Reactor φ τ} (htag : r.tag? fd direction = some tag)
      (hhandler : handler (.descriptor fd direction tag) r s = .ok (actions, s'))
      (hact : actions.foldlM act r = .ok r') :
      Fires handler r s (.descriptor fd direction tag) r' s'

/-- `FiresAll handler r s events r' s'`: the callbacks for `events`, one after the other, lead from
`r` and `s` to `r'` and `s'`. -/
inductive FiresAll (handler : Handler φ τ σ) :
    Reactor φ τ → σ → List (Fired φ τ) → Reactor φ τ → σ → Prop
  | nil {r : Reactor φ τ} {s : σ} : FiresAll handler r s [] r s
  | cons {r r₁ r₂ : Reactor φ τ} {s s₁ s₂ : σ} {event : Fired φ τ} {events : List (Fired φ τ)}
      (h : Fires handler r s event r₁ s₁) (hs : FiresAll handler r₁ s₁ events r₂ s₂) :
      FiresAll handler r s (event :: events) r₂ s₂

/-- `FiresAll` is transitive. -/
theorem FiresAll.append (h : FiresAll handler r s events r₁ s₁)
    (h' : FiresAll handler r₁ s₁ events' r₂ s₂) :
    FiresAll handler r s (events ++ events') r₂ s₂ := by
  induction h with
  | nil => exact h'
  | cons hfirst _ ih => exact .cons hfirst (ih h')

/-- `fireTimers` makes a chain of callbacks. -/
theorem firesAll_fireTimers {later : Nat → Nat} {ids : List Nat} {course : Course φ τ σ}
    (h : fireTimers handler later ids r s = .ok course) :
    FiresAll handler r s course.fired course.reactor course.state := by
  induction ids generalizing r s course with
  | nil =>
      obtain rfl := Except.ok.inj h
      exact .nil
  | cons id rest ih =>
      rw [fireTimers] at h
      cases htimer : r.timer? id with
      | none =>
          rw [htimer] at h
          exact ih h
      | some timer =>
          rw [htimer] at h
          obtain ⟨⟨actions, s₁⟩, hhandler, h⟩ := Checked.bind_eq_ok_iff.1 h
          obtain ⟨r₁, hact, h⟩ := Checked.bind_eq_ok_iff.1 h
          obtain ⟨r₂, hsettle, h⟩ := Checked.bind_eq_ok_iff.1 h
          obtain ⟨course', hrest, h⟩ := Checked.bind_eq_ok_iff.1 h
          obtain rfl := Except.ok.inj h
          exact .cons (.timer htimer hhandler hact hsettle) (ih hrest)

/-- `fireDescriptors` makes a chain of callbacks. -/
theorem firesAll_fireDescriptors {pending : List (Descriptor × Direction)}
    {course : Course φ τ σ} (h : fireDescriptors handler pending r s = .ok course) :
    FiresAll handler r s course.fired course.reactor course.state := by
  induction pending generalizing r s course with
  | nil =>
      obtain rfl := Except.ok.inj h
      exact .nil
  | cons pair rest ih =>
      obtain ⟨fd, direction⟩ := pair
      rw [fireDescriptors] at h
      cases htag : r.tag? fd direction with
      | none =>
          rw [htag] at h
          exact ih h
      | some tag =>
          rw [htag] at h
          obtain ⟨⟨actions, s₁⟩, hhandler, h⟩ := Checked.bind_eq_ok_iff.1 h
          obtain ⟨r₁, hact, h⟩ := Checked.bind_eq_ok_iff.1 h
          obtain ⟨course', hrest, h⟩ := Checked.bind_eq_ok_iff.1 h
          obtain rfl := Except.ok.inj h
          exact .cons (.descriptor htag hhandler hact) (ih hrest)

/-- **`Reactor.process` makes a chain of callbacks.** -/
theorem firesAll_process {round : Round} {course : Course φ τ σ}
    (h : process handler round r s = .ok course) :
    FiresAll handler r s course.fired course.reactor course.state := by
  obtain ⟨timeout, -, h⟩ := Checked.bind_eq_ok_iff.1 h
  obtain ⟨timers, htimers, h⟩ := Checked.bind_eq_ok_iff.1 h
  obtain ⟨descriptors, hdescriptors, h⟩ := Checked.bind_eq_ok_iff.1 h
  obtain rfl := Except.ok.inj h
  exact (firesAll_fireTimers htimers).append (firesAll_fireDescriptors hdescriptors)

/-- **`Reactor.run` makes a chain of callbacks.** -/
theorem firesAll_run {world : Nat → Reactor φ τ → σ → Round} {turn count : Nat}
    {course : Course φ τ σ} (h : run handler world turn count r s = .ok course) :
    FiresAll handler r s course.fired course.reactor course.state := by
  induction count generalizing turn r s course with
  | zero =>
      obtain rfl := Except.ok.inj h
      exact .nil
  | succ count ih =>
      rw [run] at h
      split at h
      · obtain rfl := Except.ok.inj h
        exact .nil
      · obtain ⟨first, hfirst, h⟩ := Checked.bind_eq_ok_iff.1 h
        obtain ⟨rest, hrest, h⟩ := Checked.bind_eq_ok_iff.1 h
        obtain rfl := Except.ok.inj h
        exact (firesAll_process hfirst).append (ih hrest)

end Reactor

end KeyValueServer
