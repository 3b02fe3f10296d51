import KeyValueServer.Proofs.Request.Reading

/-!
# Reading until a step stops

`Reading.Steps` are steps that go on, and `Reading.Reads` are steps up to one that stops, for lack
of bytes or at an error. The requests completed on the way, the error, and what is left to read are
the result. It is unique. When more bytes arrive, reading goes on from what was left, and the whole
is what reading everything at once gives.

## Main results

* `Reading.Reads.unique`: reading has one result.
* `Reading.Reads.append`: reading can be interrupted for lack of bytes.
* `Reading.Reads.feed_of_failure`: what arrives after an error changes nothing.
-/

namespace KeyValueServer

namespace Reading

variable {r r₁ r₂ r' r'' : Reading} {requests requests' : List (List Bytes)}
  {failure? failure?' : Option ProtocolError}

/-! ### Steps that go on -/

/-- `Steps r requests r'`: steps that go on lead from `r` to `r'` and complete `requests`. -/
inductive Steps : Reading → List (List Bytes) → Reading → Prop
  | refl {r : Reading} : Steps r [] r
  | go {r r₁ r₂ : Reading} {request? : Option (List Bytes)} {requests : List (List Bytes)}
      (h : r.step = .go request? r₁) (hs : Steps r₁ requests r₂) :
      Steps r (request?.toList ++ requests) r₂

namespace Steps

/-- `Steps` is transitive. -/
theorem trans (h : Steps r requests r₁) (h' : Steps r₁ requests' r₂) :
    Steps r (requests ++ requests') r₂ := by
  induction h with
  | refl => exact h'
  | go hstep _ ih =>
      rw [List.append_assoc]
      exact .go hstep (ih h')

/-- `Steps` take bytes from the front, and are the same whatever is behind them. -/
theorem taken (h : Steps r requests r') :
    ∃ taken, r.waiting = taken ++ r'.waiting ∧
      ∀ later, Steps (r.withWaiting (taken ++ later)) requests (r'.withWaiting later) := by
  induction h with
  | refl => exact ⟨[], rfl, fun _ => .refl⟩
  | go hstep _ ih =>
      obtain ⟨first, hfirst, -, hlocal⟩ := step_local hstep
      obtain ⟨rest, hrest, hsteps⟩ := ih
      refine ⟨first ++ rest, by rw [hfirst, hrest, List.append_assoc], fun later => ?_⟩
      rw [List.append_assoc]
      exact .go (hlocal (rest ++ later)) (hsteps later)

/-- `Steps` are the same when more bytes arrive. -/
theorem feed (h : Steps r requests r') (later : Bytes) :
    Steps (r.feed later) requests (r'.feed later) := by
  obtain ⟨taken, hwaiting, hsteps⟩ := h.taken
  rw [Reading.feed, hwaiting, List.append_assoc]
  exact hsteps (r'.waiting ++ later)

/-- `Steps` leave no more bytes than there were. -/
theorem length_le (h : Steps r requests r') : r'.waiting.length ≤ r.waiting.length := by
  obtain ⟨taken, hwaiting, -⟩ := h.taken
  rw [hwaiting, List.length_append]
  exact Nat.le_add_left _ _

/-- `Steps` depend on the settled reading only. -/
theorem of_settle_eq (hsettle : r.settle = r₁.settle) (h : Steps r requests r') :
    ∃ m, Steps r₁ requests m ∧ r'.settle = m.settle := by
  cases h with
  | refl => exact ⟨r₁, .refl, hsettle⟩
  | go hstep hs =>
      rw [step_eq_of_settle_eq hsettle] at hstep
      exact ⟨r', .go hstep hs, rfl⟩

/-- `Steps` keep `Sound`. -/
theorem sound (h : Steps r requests r') (hr : r.Sound) : r'.Sound := by
  induction h with
  | refl => exact hr
  | go hstep _ ih => exact ih (sound_of_step hstep)

end Steps

/-! ### Reading to the end -/

/-- `Reads r requests failure? r'`: steps lead from `r` to a step that stops with `failure?`, and
complete `requests`; what is left to read is `r'`. -/
inductive Reads : Reading → List (List Bytes) → Option ProtocolError → Reading → Prop
  | intro {r m : Reading} {requests : List (List Bytes)} {failure? : Option ProtocolError}
      (hs : Steps r requests m) (hstop : m.step = .stop failure?) :
      Reads r requests failure? m.settle

namespace Reads

/-- `Reads` are the `Steps` that go on, and the step that stops. -/
theorem exists_steps (h : Reads r requests failure? r') :
    ∃ m, Steps r requests m ∧ m.step = .stop failure? ∧ r' = m.settle := by
  obtain ⟨hs, hstop⟩ := h
  exact ⟨_, hs, hstop, rfl⟩

/-- `Reads` where the first step stops. -/
theorem of_stop (h : r.step = .stop failure?) : Reads r [] failure? r.settle :=
  .intro .refl h

/-- `Reads` with `Steps` in front. -/
theorem of_steps (hs : Steps r requests r₁) (h : Reads r₁ requests' failure? r') :
    Reads r (requests ++ requests') failure? r' := by
  obtain ⟨hs', hstop⟩ := h
  exact .intro (hs.trans hs') hstop

/-- **`Reads` is unique.** -/
theorem unique (h : Reads r requests failure? r') (h' : Reads r requests' failure?' r'') :
    requests = requests' ∧ failure? = failure?' ∧ r' = r'' := by
  obtain ⟨hs, hstop⟩ := h
  induction hs generalizing requests' r'' with
  | refl =>
      obtain ⟨hs', hstop'⟩ := h'
      cases hs' with
      | refl =>
          rw [hstop] at hstop'
          cases hstop'
          exact ⟨rfl, rfl, rfl⟩
      | go hstep _ =>
          rw [hstop] at hstep
          cases hstep
  | go hstep _ ih =>
      obtain ⟨hs', hstop'⟩ := h'
      cases hs' with
      | refl =>
          rw [hstep] at hstop'
          cases hstop'
      | go hstep' hs' =>
          rw [hstep] at hstep'
          cases hstep'
          obtain ⟨rfl, hfailure, hleft⟩ := ih (.intro hs' hstop') hstop
          exact ⟨rfl, hfailure, hleft⟩

/-- `Reads` depends on the settled reading only. -/
theorem of_settle_eq (hsettle : r.settle = r₁.settle) (h : Reads r requests failure? r') :
    Reads r₁ requests failure? r' := by
  obtain ⟨hs, hstop⟩ := h
  obtain ⟨m, hs', hm⟩ := hs.of_settle_eq hsettle
  rw [step_eq_of_settle_eq hm] at hstop
  rw [hm]
  exact .intro hs' hstop

/-- `Reads` keeps `Sound`. -/
theorem sound (h : Reads r requests failure? r') (hr : r.Sound) : r'.Sound := by
  obtain ⟨hs, -⟩ := h
  exact (hs.sound hr).settle

/-- What `Reads` leaves stops the same way. -/
theorem step_eq (h : Reads r requests failure? r') : r'.step = .stop failure? := by
  obtain ⟨-, hstop⟩ := h
  rw [step_eq_of_settle_eq (settle_settle _), hstop]

/-- What `Reads` leaves is settled. -/
theorem settle_eq (h : Reads r requests failure? r') : r'.settle = r' := by
  obtain ⟨-, -⟩ := h
  exact settle_settle _

/-- **`Reads` can be interrupted for lack of bytes**: it goes on from what is left when more have
arrived. -/
theorem append (h : Reads r requests none r₁) (later : Bytes)
    (h' : Reads (r₁.feed later) requests' failure? r') :
    Reads (r.feed later) (requests ++ requests') failure? r' := by
  obtain ⟨hs, -⟩ := h
  exact of_steps (hs.feed later) (of_settle_eq (settle_feed_settle _ later) h')

/-- **What arrives after an error changes nothing**, unless the error is `headerTooLong`. -/
theorem feed_of_failure {e : ProtocolError} (h : Reads r requests (some e) r')
    (hlong : ∀ n, e ≠ .headerTooLong n) (later : Bytes) :
    Reads (r.feed later) requests (some e) (r'.feed later) := by
  obtain ⟨m, hs, hstop, rfl⟩ := h.exists_steps
  have hwaiting : m.waiting ≠ [] := by
    intro hnil
    rw [step_of_waiting_nil hnil] at hstop
    cases hstop
  rw [← settle_feed hwaiting]
  exact .intro (hs.feed later) (step_feed_of_failure hstop hlong later)

/-- A header line with `headerTooLong` stands behind the bytes read before it. -/
theorem exists_header {n : Nat} (h : Reads r requests (some (.headerTooLong n)) r') :
    ∃ (taken : Bytes) (m : Reading), r.waiting = taken ++ m.waiting ∧
      Steps (r.withWaiting taken) requests (m.withWaiting []) ∧
      m.step = .stop (some (.headerTooLong n)) := by
  obtain ⟨m, hs, hstop, -⟩ := h.exists_steps
  obtain ⟨taken, hwaiting, hsteps⟩ := hs.taken
  have hnil := hsteps []
  rw [List.append_nil] at hnil
  exact ⟨taken, m, hwaiting, hnil, hstop⟩

end Reads

end Reading

end KeyValueServer
