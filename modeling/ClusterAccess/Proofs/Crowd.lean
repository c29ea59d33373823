/-
Requests that run at once, on a state of any kind.

A crowd is a state and the requests that use it, each with the calls that it has made and
the program that it has left.  A move serves the call that is due of one of them, and any
of them may be next, so the runs are all the ways in which the calls can be interleaved.
How a call is served is a relation on the state, which is given.

Two things are true of every run, whatever the state is.

  * A request is where its history has brought it, and so is one whose call is served
    (`Run.after_of_mem`, `Run.served_of_mem`).
  * What stands in a history was served in some move (`Run.move_of_event`).
-/
import ClusterAccess.Proofs.History
import ClusterAccess.Proofs.Trace

namespace ClusterAccess

open Program (After History)

/-- A request that is under way. -/
structure Runner (ι α : Type) where
  /-- What the request is about. -/
  errand : ι
  history : History Call Call.Reply
  /-- What the request has left to do. -/
  program : Program Call Call.Reply (Outcome α)

namespace Runner

variable {ι α : Type}

/-- A request that has not made a call yet. -/
def start (request : ι → Request α) (errand : ι) : Runner ι α where
  errand := errand
  history := []
  program := (request errand).run

/-- A request that goes on with a reply. -/
def proceed (r : Runner ι α) (call : Call) (reply : call.Reply)
    (program : Program Call Call.Reply (Outcome α)) : Runner ι α where
  errand := r.errand
  history := r.history ++ [⟨call, reply⟩]
  program := program

end Runner

/-- A state and the requests that use it. -/
structure Crowd (σ ι α : Type) where
  state : σ
  runners : List (Runner ι α)

namespace Crowd

variable {σ ι α : Type}

/-- Requests that all begin at once. -/
def start (request : ι → Request α) (state : σ) (errands : List ι) : Crowd σ ι α where
  state := state
  runners := errands.map (Runner.start request)

/-- A call that is served: whose it is, and the reply. -/
structure Served (ι α : Type) where
  /-- The request as it is when its call is due. -/
  runner : Runner ι α
  call : Call
  reply : call.Reply

/-- The call that is due of one of the requests is served. -/
inductive Step (serves : σ → (call : Call) → call.Reply → σ → Prop) :
    Crowd σ ι α → Served ι α → Crowd σ ι α → Prop
  | served {state after : σ} (ahead : List (Runner ι α)) {r : Runner ι α}
      (behind : List (Runner ι α)) {call : Call} {reply : call.Reply}
      {next : call.Reply → Program Call Call.Reply (Outcome α)}
      (hdue : r.program = .call call next) (hs : serves state call reply after) :
      Step serves ⟨state, ahead ++ r :: behind⟩ ⟨r, call, reply⟩
        ⟨after, ahead ++ r.proceed call reply (next reply) :: behind⟩

/-- A call that was served, with the crowds before and after it. -/
abbrev Move (σ ι α : Type) := ClusterAccess.Move (Crowd σ ι α) (Served ι α)

/-- Any number of moves, one after another. -/
abbrev Run (serves : σ → (call : Call) → call.Reply → σ → Prop) (start : Crowd σ ι α) :
    List (Move σ ι α) → Crowd σ ι α → Prop :=
  Trace (Step serves) start

variable {serves : σ → (call : Call) → call.Reply → σ → Prop} {request : ι → Request α}
  {state : σ} {errands : List ι} {final : Crowd σ ι α} {moves : List (Move σ ι α)}

/-! ### The requests of a run -/

/-- Every request is one of those that began, and is where its history has brought it. -/
theorem Run.after_of_mem (hrun : Run serves (.start request state errands) moves final) :
    ∀ r ∈ final.runners, r.errand ∈ errands ∧
      After (request r.errand).run r.history r.program := by
  induction hrun with
  | nil =>
      intro r hr
      obtain ⟨errand, herrand, rfl⟩ := List.mem_map.1 hr
      exact ⟨herrand, .start _⟩
  | snoc hrun hstep ih =>
      intro r' hr'
      cases hstep with
      | @served state after ahead r behind call reply next hdue hs =>
          rcases List.mem_append.1 hr' with hahead | hr'
          · exact ih r' (List.mem_append_left _ hahead)
          rcases List.mem_cons.1 hr' with rfl | hbehind
          · have hr := ih r (by simp)
            have hafter := hr.2
            rw [hdue] at hafter
            exact ⟨hr.1, hafter.snoc reply⟩
          · exact ih r' (by simp [hbehind])

/-- A call that was served was due to one of the requests that began. -/
theorem Run.served_of_mem (hrun : Run serves (.start request state errands) moves final) :
    ∀ m ∈ moves, m.event.runner.errand ∈ errands ∧
      (∃ next, After (request m.event.runner.errand).run m.event.runner.history
        (.call m.event.call next)) ∧
        serves m.before.state m.event.call m.event.reply m.after.state := by
  intro m hm
  obtain ⟨earlier, later, rfl⟩ := List.append_of_mem hm
  obtain ⟨hearlier, hstep, -⟩ := Trace.split hrun
  obtain ⟨before, event, after⟩ := m
  cases hstep with
  | @served state after ahead r behind call reply next hdue hs =>
      obtain ⟨herrand, hafter⟩ := Run.after_of_mem hearlier r (by simp)
      rw [hdue] at hafter
      exact ⟨herrand, ⟨next, hafter⟩, hs⟩

/-- What a request has in its history was served to it. -/
theorem Run.move_of_event (hrun : Run serves (.start request state errands) moves final) :
    ∀ r ∈ final.runners, ∀ event ∈ r.history,
      ∃ m ∈ moves, m.event.runner.errand = r.errand ∧ event = ⟨m.event.call, m.event.reply⟩ := by
  induction hrun with
  | nil =>
      intro r hr event hevent
      obtain ⟨errand, -, rfl⟩ := List.mem_map.1 hr
      cases hevent
  | @snoc moves _ _ _ hrun hstep ih =>
      intro r' hr' event hevent
      cases hstep with
      | @served state after ahead r behind call reply next hdue hs =>
          -- What was served before is still among the moves.
          have hearlier : ∀ last : Move σ ι α, ∀ u ∈ ahead ++ r :: behind, event ∈ u.history →
              u.errand = r'.errand → ∃ m ∈ moves ++ [last],
                m.event.runner.errand = r'.errand ∧ event = ⟨m.event.call, m.event.reply⟩ := by
            intro last u hu hin herrand
            obtain ⟨m, hm, hrunner, heq⟩ := ih u hu event hin
            exact ⟨m, List.mem_append_left _ hm, hrunner.trans herrand, heq⟩
          rcases List.mem_append.1 hr' with hahead | hr'
          · exact hearlier _ r' (List.mem_append_left _ hahead) hevent rfl
          rcases List.mem_cons.1 hr' with rfl | hbehind
          · rcases List.mem_append.1 hevent with hold | hnew
            · exact hearlier _ r (by simp) hold rfl
            · exact ⟨_, List.mem_append_right _ (List.mem_singleton_self _), rfl,
                List.mem_singleton.1 hnew⟩
          · exact hearlier _ r' (by simp [hbehind]) hevent rfl

end Crowd

end ClusterAccess
