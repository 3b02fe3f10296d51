import Mathlib.Data.List.Nodup
import Mathlib.Order.Bounds.Basic
import KeyValueServer.Proofs.Reactor.Timers

/-!
# Timers and the width of the clock

A time of the clock is a 64-bit word, and so is an interval. Their sum need not be one
(`Checked.sum64`): a timer is started or scheduled again exactly when it is, and then falls due at
that sum and not before. A wait is bounded by `Reactor.maxWait`, which is added to the clock as
well; what is left of it after the timers have been looked at is between one millisecond and a
second, and so is not changed by its narrower width.

In a loop whose clock has some distance to its end, none of these sums is too large, as long as the
intervals are no longer than that distance. All sums are of a reading and an interval, so no timer
comes nearer to the end of the clock than one interval after the latest reading
(`Reactor.ArmedWithin`).

## Main results

* `Reactor.Arms`, `Reactor.WaitsFor`: what a timer that is started or scheduled again falls due at,
  and how long a wait is.
* `Reactor.KeepsTime`, `Reactor.keepsTime`: the loop computes these, up to the exact bounds.
* `Reactor.ArmedWithin`, `Reactor.ArmedWithin.run`: a loop that keeps its distance never faults.
-/

namespace KeyValueServer

/-- `t.ArmedWithin latest longest`: a timer has been armed at a reading of the clock no later than
`latest`, for an interval no longer than `longest`. -/
structure Timer.ArmedWithin {τ : Type} (latest longest : Nat) (t : Timer τ) : Prop where
  interval_le : t.interval ≤ longest
  due_eq : ∃ reading ≤ latest, t.due = reading + t.interval

/-- `action.StartsWithin latest longest`: the action starts a timer within such bounds, or none. -/
def Action.StartsWithin {φ τ : Type} (latest longest : Nat) : Action φ τ → Prop
  | .start _ interval _ now => now ≤ latest ∧ interval ≤ longest
  | .arm .. => True
  | .disarm .. => True
  | .cancel _ => True
  | .stop => True

/-- `handler.StartsWithin Holds latest longest`: in the states `Holds` a handler does not fault, it
leads to such states, and starts timers within the bounds only. -/
def Handler.StartsWithin {φ τ σ : Type} (Holds : σ → Prop) (latest longest : Nat)
    (handler : Handler φ τ σ) : Prop :=
  ∀ event r s, Holds s → ∃ actions s', handler event r s = .ok (actions, s') ∧ Holds s' ∧
    ∀ action ∈ actions, action.StartsWithin latest longest

/-- `round.ReadsBy latest`: all times that the round takes off the clock for sums are no later than
`latest`. -/
structure Round.ReadsBy (latest : Nat) (round : Round) : Prop where
  before_le : round.before ≤ latest
  later_le : ∀ id, round.later id ≤ latest

namespace Reactor

variable {φ τ σ : Type} {r r' : Reactor φ τ} {id now interval w latest longest : Nat}

/-! ### One sum -/

/-- `r.Arms now t r'`: in `r'` the timer `t` is armed to fall due an interval from now, a time that
the clock can show; the other timers are those of `r`. -/
structure Arms (r : Reactor φ τ) (now : Nat) (t : Timer τ) (r' : Reactor φ τ) : Prop where
  fits : now + t.interval < wordLimit
  due_eq : t.due = now + t.interval
  le_due : now ≤ t.due
  armed : r'.timer? t.id = some t
  others : ∀ other, other ≠ t.id → r'.timer? other = r.timer? other

/-- `nextId` is the number of no timer, where the loop is `Ordered`. -/
theorem Ordered.timer?_nextId (h : Ordered r) : r.timer? r.nextId = none := by
  refine List.find?_eq_none.2 fun t ht hid => ?_
  have hgiven := h.given _ (List.mem_map_of_mem ht)
  exact absurd (beq_iff_eq.1 hid) (Nat.ne_of_lt hgiven)

/-- **`Reactor.start`** arms the timer where its sum is a word. -/
theorem start_arms (h : Ordered r) (kind : TimerKind) (tag : τ)
    (hfits : now + interval < wordLimit) :
    ∃ r', r.start kind interval tag now = .ok (r.nextId, r') ∧
      r.Arms now ⟨r.nextId, kind, now + interval, interval, tag⟩ r' := by
  have hsum : Checked.sum64 now interval = .ok (now + interval) :=
    Checked.sum64_eq_ok_iff.2 ⟨hfits, rfl⟩
  refine ⟨_, by rw [start, hsum, Checked.ok_bind], hfits, rfl, Nat.le_add_right .., ?_, ?_⟩
  · have hnone := h.timer?_nextId
    rw [timer?] at hnone ⊢
    rw [List.find?_append, hnone, Option.none_or, List.find?_singleton, if_pos (beq_self_eq_true _)]
  · intro other hother
    have hne : ¬ (r.nextId == other) = true := by simpa using hother.symm
    rw [timer?, timer?, List.find?_append, List.find?_singleton, if_neg hne, Option.or_none]

/-- Another time to fall due leaves each timer its number. -/
theorem find?_map_due (timers : List (Timer τ)) (id due other : Nat) :
    (timers.map fun t => if t.id = id then { t with due := due } else t).find? (·.id == other) =
      (timers.find? (·.id == other)).map fun t =>
        if t.id = id then { t with due := due } else t := by
  rw [List.find?_map]
  congr 2
  funext t
  dsimp only [Function.comp_apply]
  split <;> rfl

/-- **`Reactor.reschedule`** arms the timer where its sum is a word. -/
theorem reschedule_arms {t : Timer τ} (htimer : r.timer? id = some t)
    (hfits : now + t.interval < wordLimit) :
    ∃ r', r.reschedule id now = .ok r' ∧ r.Arms now { t with due := now + t.interval } r' := by
  have hsum : Checked.sum64 now t.interval = .ok (now + t.interval) :=
    Checked.sum64_eq_ok_iff.2 ⟨hfits, rfl⟩
  obtain rfl : t.id = id := by simpa using List.find?_some htimer
  refine ⟨_, by rw [reschedule, htimer]; dsimp only; rw [hsum, Checked.ok_bind], hfits, rfl,
    Nat.le_add_right .., ?_, ?_⟩
  · rw [timer?] at htimer ⊢
    rw [find?_map_due, htimer, Option.map_some, if_pos rfl]
  · intro other hother
    rw [timer?, timer?, find?_map_due]
    cases hfound : r.timers.find? (·.id == other) with
    | none => rfl
    | some t' =>
        have hid : t'.id = other := by simpa using List.find?_some hfound
        rw [Option.map_some, if_neg (hid ▸ hother)]

/-! ### The length of a wait -/

/-- `r.WaitsFor now w`: a wait of `w` milliseconds from now. It is short if a timer is due, and else
ends with the first timer that falls due, or after the longest wait. -/
structure WaitsFor (r : Reactor φ τ) (now w : Nat) : Prop where
  of_due : (∃ t ∈ r.timers, t.due ≤ now) → w = 10
  of_not_due : (∀ t ∈ r.timers, now < t.due) →
    IsLeast {left | left = 1000 ∨ ∃ t ∈ r.timers, t.due = now + left} w
  pos : 1 ≤ w
  le : w ≤ 1000

/-- `foldl min` finds the least of a limit and other times. -/
theorem isLeast_foldl_min (limit : Nat) (times : List Nat) :
    IsLeast {time | time = limit ∨ time ∈ times} (times.foldl min limit) := by
  induction times generalizing limit with
  | nil =>
      refine ⟨.inl rfl, fun time htime => ?_⟩
      rcases htime with rfl | htime
      · exact Nat.le_refl _
      · exact absurd htime List.not_mem_nil
  | cons first rest ih =>
      obtain ⟨hmem, hle⟩ := ih (min limit first)
      rw [List.foldl_cons]
      refine ⟨?_, fun time htime => ?_⟩
      · rcases hmem with hmem | hmem
        · rw [hmem]
          rcases Nat.le_total limit first with h | h
          · exact .inl (Nat.min_eq_left h)
          · exact .inr (by rw [Nat.min_eq_right h]; exact List.mem_cons_self)
        · exact .inr (List.mem_cons_of_mem first hmem)
      · have hleast : rest.foldl min (min limit first) ≤ min limit first := hle (.inl rfl)
        rcases htime with rfl | htime
        · exact hleast.trans (Nat.min_le_left ..)
        · cases htime with
          | head => exact hleast.trans (Nat.min_le_right ..)
          | tail _ htime => exact hle (.inr htime)

/-- **`Reactor.waitTimeout`** is a length of time that its narrower width can hold, and for which
the loop is to wait. -/
theorem waitTimeout_ok (r : Reactor φ τ) (hfits : now + maxWait < wordLimit) :
    ∃ w : Nat, r.waitTimeout now = .ok (Int32.ofNat w) ∧ (Int32.ofNat w).toInt = w ∧
      r.WaitsFor now w := by
  have hsum : Checked.sum64 now maxWait = .ok (now + maxWait) :=
    Checked.sum64_eq_ok_iff.2 ⟨hfits, rfl⟩
  have htoInt : ∀ w ≤ maxWait, (Int32.ofNat w).toInt = w := fun w hw =>
    Int32.toInt_ofNat_of_lt (hw.trans_lt (by decide))
  obtain ⟨hmem, hle⟩ := isLeast_foldl_min (now + maxWait) (r.timers.map (·.due))
  rw [waitTimeout, nearest, hsum, Checked.ok_bind, Checked.ok_bind]
  generalize (r.timers.map (·.due)).foldl min (now + maxWait) = soonest at hmem hle ⊢
  have hlimit : soonest ≤ now + maxWait := hle (.inl rfl)
  have hdue : ∀ t ∈ r.timers, soonest ≤ t.due := fun t ht => hle (.inr (List.mem_map_of_mem ht))
  have hreached : soonest = now + maxWait ∨ ∃ t ∈ r.timers, t.due = soonest :=
    hmem.imp_right List.mem_map.1
  by_cases hnow : soonest ≤ now
  · refine ⟨dueWait, by rw [if_pos hnow], htoInt dueWait (by decide), ?_⟩
    refine ⟨fun _ => rfl, fun hlater => ?_, by decide, by decide⟩
    rcases hreached with hend | ⟨t, ht, hend⟩
    · exact absurd (hend ▸ hnow) (Nat.not_le_of_gt (Nat.lt_add_of_pos_right (by decide)))
    · exact absurd (hlater t ht) (Nat.not_lt_of_ge (hend ▸ hnow))
  · have hw : soonest - now ≤ maxWait := Nat.sub_le_iff_le_add'.2 hlimit
    refine ⟨soonest - now, by rw [if_neg hnow], htoInt _ hw, ?_⟩
    refine ⟨?_, fun _ => ⟨?_, ?_⟩, Nat.sub_pos_of_lt (Nat.lt_of_not_le hnow), hw⟩
    · rintro ⟨t, ht, htnow⟩
      exact absurd ((hdue t ht).trans htnow) hnow
    · refine hreached.imp (fun hend => by rw [hend, Nat.add_sub_cancel_left]; rfl) ?_
      rintro ⟨t, ht, hend⟩
      exact ⟨t, ht, by omega⟩
    · rintro left (rfl | ⟨t, ht, hleft⟩)
      · exact hw
      · have hend := hdue t ht
        omega

/-! ### All sums of a loop -/

/-- `r.KeepsTime now`: what is armed at a reading of the clock falls due after its interval, and the
next wait is as long as it has to be, each as long as its sum is a word; else it faults. -/
structure KeepsTime (r : Reactor φ τ) (now : Nat) : Prop where
  start_ok : ∀ kind interval tag, now + interval < wordLimit →
    ∃ r', r.start kind interval tag now = .ok (r.nextId, r') ∧
      r.Arms now ⟨r.nextId, kind, now + interval, interval, tag⟩ r'
  start_fault : ∀ kind interval tag, wordLimit ≤ now + interval →
    r.start kind interval tag now = .error .overflow
  reschedule_ok : ∀ id t, r.timer? id = some t → now + t.interval < wordLimit →
    ∃ r', r.reschedule id now = .ok r' ∧ r.Arms now { t with due := now + t.interval } r'
  reschedule_fault : ∀ id t, r.timer? id = some t → wordLimit ≤ now + t.interval →
    r.reschedule id now = .error .overflow
  wait_ok : now + maxWait < wordLimit →
    ∃ w : Nat, r.waitTimeout now = .ok (Int32.ofNat w) ∧ (Int32.ofNat w).toInt = w ∧
      r.WaitsFor now w
  wait_fault : wordLimit ≤ now + maxWait → r.waitTimeout now = .error .overflow

/-- **`KeepsTime` of any loop** that is `Ordered`. -/
theorem keepsTime (h : Ordered r) (now : Nat) : r.KeepsTime now where
  start_ok kind _ tag hfits := start_arms h kind tag hfits
  start_fault kind interval tag hlarge := by
    rw [start, Checked.sum64, if_neg hlarge.not_gt, Checked.error_bind]
  reschedule_ok _ _ htimer hfits := reschedule_arms htimer hfits
  reschedule_fault id t htimer hlarge := by
    rw [reschedule, htimer]
    dsimp only
    rw [Checked.sum64, if_neg hlarge.not_gt, Checked.error_bind]
  wait_ok hfits := r.waitTimeout_ok hfits
  wait_fault hlarge := by
    rw [waitTimeout, nearest, Checked.sum64, if_neg hlarge.not_gt, Checked.error_bind,
      Checked.error_bind]

/-! ### A loop at a distance from the end of the clock -/

/-- `r.ArmedWithin latest longest`: the timers of the loop stand in their order, and all of them are
armed within the bounds. -/
structure ArmedWithin (latest longest : Nat) (r : Reactor φ τ) : Prop where
  ordered : Ordered r
  timers : ∀ t ∈ r.timers, t.ArmedWithin latest longest

variable {action : Action φ τ} {actions : List (Action φ τ)}

/-- A timer of an `Ordered` loop is known by its number. -/
theorem Ordered.eq_of_id_eq {t t' : Timer τ} (h : Ordered r) (ht : t ∈ r.timers)
    (ht' : t' ∈ r.timers) (hid : t.id = t'.id) : t = t' := by
  have hnodup : (r.timers.map (·.id)).Nodup := by
    have hincreasing := h.increasing.imp Nat.ne_of_lt
    rwa [roster, List.map_map] at hincreasing
  exact List.inj_on_of_nodup_map hnodup ht ht' hid

/-- `sum64` of a reading and an interval within the bounds. -/
theorem sum64_within (hfits : latest + longest < wordLimit) (hnow : now ≤ latest)
    (hinterval : interval ≤ longest) : Checked.sum64 now interval = .ok (now + interval) :=
  Checked.sum64_eq_ok_iff.2 ⟨(Nat.add_le_add hnow hinterval).trans_lt hfits, rfl⟩

/-- **`Reactor.act`** within the bounds. -/
theorem ArmedWithin.act (h : r.ArmedWithin latest longest) (hfits : latest + longest < wordLimit)
    (haction : action.StartsWithin latest longest) :
    ∃ r', r.act action = .ok r' ∧ r'.ArmedWithin latest longest := by
  suffices hsuffices : ∃ r', r.act action = .ok r' ∧
      ∀ t ∈ r'.timers, t.ArmedWithin latest longest by
    obtain ⟨r', hact, htimers⟩ := hsuffices
    exact ⟨r', hact, h.ordered.descends (descends_act hact), htimers⟩
  cases action with
  | arm fd direction tag => exact ⟨_, rfl, by rw [timers_arm]; exact h.timers⟩
  | disarm fd direction => exact ⟨_, rfl, by rw [timers_disarm]; exact h.timers⟩
  | start kind interval tag now =>
      obtain ⟨hnow, hinterval⟩ := haction
      have hsum := sum64_within hfits hnow hinterval
      refine ⟨_, by rw [Reactor.act, start, hsum, Checked.ok_bind, Checked.ok_bind], ?_⟩
      intro t ht
      rcases List.mem_append.1 ht with ht | ht
      · exact h.timers t ht
      · rw [List.mem_singleton.1 ht]
        exact ⟨hinterval, now, hnow, rfl⟩
  | cancel id => exact ⟨_, rfl, fun t ht => h.timers t (List.mem_of_mem_eraseP ht)⟩
  | stop => exact ⟨_, rfl, h.timers⟩

/-- **Actions** within the bounds, one after the other. -/
theorem ArmedWithin.foldlM_act (h : r.ArmedWithin latest longest)
    (hfits : latest + longest < wordLimit)
    (hactions : ∀ action ∈ actions, action.StartsWithin latest longest) :
    ∃ r', actions.foldlM Reactor.act r = .ok r' ∧ r'.ArmedWithin latest longest := by
  induction actions generalizing r with
  | nil => exact ⟨r, rfl, h⟩
  | cons action rest ih =>
      obtain ⟨hfirst, hrest⟩ := List.forall_mem_cons.1 hactions
      obtain ⟨r₁, hact, hr₁⟩ := h.act hfits hfirst
      obtain ⟨r₂, hacts, hr₂⟩ := ih hr₁ hrest
      exact ⟨r₂, by rw [List.foldlM_cons, hact, Checked.ok_bind, hacts], hr₂⟩

/-- **`Reactor.reschedule`** within the bounds. -/
theorem ArmedWithin.reschedule (h : r.ArmedWithin latest longest)
    (hfits : latest + longest < wordLimit) (id : Nat) (hnow : now ≤ latest) :
    ∃ r', r.reschedule id now = .ok r' ∧ ∀ t ∈ r'.timers, t.ArmedWithin latest longest := by
  rw [Reactor.reschedule]
  cases htimer : r.timer? id with
  | none => exact ⟨r, rfl, h.timers⟩
  | some timer =>
      have hmem : timer ∈ r.timers := List.mem_of_find?_eq_some htimer
      have hid : timer.id = id := by simpa using List.find?_some htimer
      have hinterval := (h.timers timer hmem).interval_le
      dsimp only
      rw [sum64_within hfits hnow hinterval, Checked.ok_bind]
      refine ⟨_, rfl, fun t ht => ?_⟩
      obtain ⟨old, hold, rfl⟩ := List.mem_map.1 ht
      split
      · -- the sum has the interval of the timer that was found, which is this one
        rename_i hid'
        obtain rfl := h.ordered.eq_of_id_eq hold hmem (hid'.trans hid.symm)
        exact ⟨hinterval, now, hnow, rfl⟩
      · exact h.timers old hold

/-- **`Reactor.settleTimer`** within the bounds. -/
theorem ArmedWithin.settleTimer (h : r.ArmedWithin latest longest)
    (hfits : latest + longest < wordLimit) (kind : TimerKind) (id : Nat) (hnow : now ≤ latest) :
    ∃ r', r.settleTimer kind id now = .ok r' ∧ r'.ArmedWithin latest longest := by
  suffices hsuffices : ∃ r', r.settleTimer kind id now = .ok r' ∧
      ∀ t ∈ r'.timers, t.ArmedWithin latest longest by
    obtain ⟨r', hsettle, htimers⟩ := hsuffices
    exact ⟨r', hsettle, h.ordered.descends (descends_settleTimer hsettle), htimers⟩
  cases kind with
  | once => exact ⟨_, rfl, fun t ht => h.timers t (List.mem_of_mem_eraseP ht)⟩
  | recurring => exact h.reschedule hfits id hnow

variable {handler : Handler φ τ σ} {Holds : σ → Prop} {s : σ}

/-- **`fireTimers`** within the bounds. -/
theorem ArmedWithin.fireTimers (hhandler : handler.StartsWithin Holds latest longest)
    (hfits : latest + longest < wordLimit) {later : Nat → Nat} (hlater : ∀ id, later id ≤ latest)
    (ids : List Nat) (h : r.ArmedWithin latest longest) (hs : Holds s) :
    ∃ course, fireTimers handler later ids r s = .ok course ∧
      course.reactor.ArmedWithin latest longest ∧ Holds course.state := by
  induction ids generalizing r s with
  | nil => exact ⟨_, rfl, h, hs⟩
  | cons id rest ih =>
      rw [Reactor.fireTimers]
      cases htimer : r.timer? id with
      | none => exact ih h hs
      | some timer =>
          obtain ⟨actions, s₁, hanswer, hs₁, hactions⟩ := hhandler (.timer id timer.tag) r s hs
          obtain ⟨r₁, hacts, hr₁⟩ := h.foldlM_act hfits hactions
          obtain ⟨r₂, hsettle, hr₂⟩ := hr₁.settleTimer hfits timer.kind id (hlater id)
          obtain ⟨course, hrest, hcourse⟩ := ih hr₂ hs₁
          refine ⟨course.after (.timer id timer.tag), ?_, hcourse⟩
          simp only [hanswer, hacts, hsettle, hrest, Checked.ok_bind]

/-- **`fireDescriptors`** within the bounds. -/
theorem ArmedWithin.fireDescriptors (hhandler : handler.StartsWithin Holds latest longest)
    (hfits : latest + longest < wordLimit) (pending : List (Descriptor × Direction))
    (h : r.ArmedWithin latest longest) (hs : Holds s) :
    ∃ course, fireDescriptors handler pending r s = .ok course ∧
      course.reactor.ArmedWithin latest longest ∧ Holds course.state := by
  induction pending generalizing r s with
  | nil => exact ⟨_, rfl, h, hs⟩
  | cons pair rest ih =>
      obtain ⟨fd, direction⟩ := pair
      rw [Reactor.fireDescriptors]
      cases htag : r.tag? fd direction with
      | none => exact ih h hs
      | some tag =>
          obtain ⟨actions, s₁, hanswer, hs₁, hactions⟩ :=
            hhandler (.descriptor fd direction tag) r s hs
          obtain ⟨r₁, hacts, hr₁⟩ := h.foldlM_act hfits hactions
          obtain ⟨course, hrest, hcourse⟩ := ih hr₁ hs₁
          refine ⟨course.after (.descriptor fd direction tag), ?_, hcourse⟩
          simp only [hanswer, hacts, hrest, Checked.ok_bind]

/-- **`Reactor.process`** within the bounds does not fault. -/
theorem ArmedWithin.process (hhandler : handler.StartsWithin Holds latest longest)
    (hfits : latest + longest < wordLimit) (hwait : latest + maxWait < wordLimit) {round : Round}
    (hround : round.ReadsBy latest) (h : r.ArmedWithin latest longest) (hs : Holds s) :
    ∃ course, process handler round r s = .ok course ∧
      course.reactor.ArmedWithin latest longest ∧ Holds course.state := by
  have hbefore : round.before + maxWait < wordLimit :=
    (Nat.add_le_add_right hround.before_le maxWait).trans_lt hwait
  obtain ⟨w, hw, -⟩ := r.waitTimeout_ok hbefore
  obtain ⟨timers, htimers, hr₁, hs₁⟩ :=
    h.fireTimers hhandler hfits hround.later_le (r.due round.now) hs
  obtain ⟨descriptors, hdescriptors, hcourse⟩ :=
    hr₁.fireDescriptors hhandler hfits (r.ready round.polled) hs₁
  refine ⟨{ descriptors with fired := timers.fired ++ descriptors.fired }, ?_, hcourse⟩
  simp only [Reactor.process, hw, htimers, hdescriptors, Checked.ok_bind]

/-- **`Reactor.run`** within the bounds does not fault, however long it is. -/
theorem ArmedWithin.run (hhandler : handler.StartsWithin Holds latest longest)
    (hfits : latest + longest < wordLimit) (hwait : latest + maxWait < wordLimit)
    {world : Nat → Reactor φ τ → σ → Round}
    (hworld : ∀ turn r s, (world turn r s).ReadsBy latest) (turn count : Nat)
    (h : r.ArmedWithin latest longest) (hs : Holds s) :
    ∃ course, run handler world turn count r s = .ok course ∧
      course.reactor.ArmedWithin latest longest ∧ Holds course.state := by
  induction count generalizing turn r s with
  | zero => exact ⟨_, rfl, h, hs⟩
  | succ count ih =>
      rw [Reactor.run]
      split
      · exact ⟨_, rfl, h, hs⟩
      · obtain ⟨first, hfirst, hr₁, hs₁⟩ :=
          h.process hhandler hfits hwait (hworld turn r s) hs
        obtain ⟨rest, hrest, hcourse⟩ := ih (turn + 1) hr₁ hs₁
        refine ⟨{ rest with fired := first.fired ++ rest.fired }, ?_, hcourse⟩
        simp only [hfirst, hrest, Checked.ok_bind]

end Reactor

end KeyValueServer
