import KeyValueServer.Proofs.Keyspace.Refinement
import KeyValueServer.Proofs.Server.Moments

/-!
# The sequential execution behind the moments

`Happening.replay` is what a `Happening` does to the keyspace: an `attempted` request is performed
by `Keyspace.perform` and must come to the outcome that was recorded, `cycled` runs
`Keyspace.expireCycle`, and anything else leaves the keyspace as it is. A list of moments is
`Sequential` when the keyspace of each is `Happening.replay` on the keyspace before it.

## Main results

* `Server.Sequential`: moments whose keyspaces are those of a sequential execution.
* `Server.Sequential.replay_eq`: the keyspace at the end is what replaying all events gives.
-/

namespace KeyValueServer

/-- `Happening.replay keyspace event` is what the event does to the keyspace. A request must come to
the outcome `p.outcome` that it came to when it was performed. -/
def Happening.replay (keyspace : Keyspace) : Happening → Checked Keyspace
  | .attempted _ (some p) => do
    let (outcome, keyspace) ← keyspace.perform p.time (p.args.map .str)
    if outcome = p.outcome then .ok keyspace else .error .assertion
  | .cycled count now draws => do
    let (_, keyspace) ← keyspace.expireCycle count now draws
    .ok keyspace
  | _ => .ok keyspace

namespace Server

/-- `Sequential s moments`: from the server `s` on, each event replays to the keyspace of its
moment. -/
inductive Sequential : Server → List Moment → Prop
  | nil {s : Server} : Sequential s []
  | cons {s : Server} {m : Moment} {rest : List Moment}
      (h : m.event.replay s.keyspace = .ok m.server.keyspace)
      (hs : Sequential m.server rest) : Sequential s (m :: rest)

namespace Sequential

variable {s : Server} {front back moments : List Moment}

/-- `Sequential` of moments after moments. -/
theorem append (h : Sequential s front) (h' : Sequential (s.after front) back) :
    Sequential s (front ++ back) := by
  induction h with
  | nil => exact h'
  | cons hfirst _ ih => exact .cons hfirst (ih h')

/-- `Sequential` of the moments before others. -/
theorem of_append_left (h : Sequential s (front ++ back)) : Sequential s front := by
  induction front generalizing s with
  | nil => exact .nil
  | cons m rest ih =>
      cases h with
      | cons hfirst hs => exact .cons hfirst (ih hs)

/-- `Happening.replay` of each event gives the keyspace of its moment. -/
theorem replay_event {m : Moment} (h : Sequential s (front ++ m :: back)) :
    m.event.replay (s.after front).keyspace = .ok m.server.keyspace := by
  induction front generalizing s with
  | nil =>
      cases h with
      | cons hfirst _ => exact hfirst
  | cons first rest ih =>
      cases h with
      | cons _ hs => exact ih hs

/-- **The keyspace at the end is what `Happening.replay` of all events gives.** -/
theorem replay_eq (h : Sequential s moments) :
    (moments.map (·.event)).foldlM Happening.replay s.keyspace =
      .ok (s.after moments).keyspace := by
  induction h with
  | nil => rfl
  | cons hfirst _ ih =>
      rw [List.map_cons, List.foldlM_cons, hfirst, Checked.ok_bind]
      exact ih

end Sequential

end Server

end KeyValueServer
