/-
Requests that nothing disturbs.

A world is a state that replies to calls, such as a control plane.  As long as nobody else uses
it, a request is carried out in it call by call (`carry`): each call finds the world as the one
before it has left it.  So a request that is composed of two is carried out as the first, and then
as the second where the first has ended (`serve_bind`, `carry_bind_ok`, `carry_bind_error`).
-/
import ClusterAccess.Proofs.History

namespace ClusterAccess

/-- A state in which calls are carried out. -/
class World (σ : Type) where
  /-- The reply to a call, and the state that it leaves. -/
  act : σ → (call : Call) → call.Reply × σ

namespace World

variable {σ α β : Type} [World σ] {s mid after : σ} {call : Call}

/-- Carries out a program.  There is no value if the program does not end. -/
def serve : Program Call Call.Reply α → σ → Option α × σ
  | .done value, s => (some value, s)
  | .call call next, s => serve (next (act s call).1) (act s call).2
  | .unfinished, s => (none, s)

/-- Carries out a request. -/
def carry (s : σ) (request : Request α) : Option (Outcome α) × σ :=
  serve request.run s

theorem serve_bind (p : Program Call Call.Reply α) (f : α → Program Call Call.Reply β) (s : σ) :
    serve (p >>= f) s =
      match serve p s with
      | (some value, mid) => serve (f value) mid
      | (none, mid) => (none, mid) := by
  induction p generalizing s with
  | done value => rfl
  | call call next ih => exact ih (act s call).1 (act s call).2
  | unfinished => rfl

theorem carry_send {reply : call.Reply} (h : act s call = (reply, after)) :
    carry s (send call) = (some reply, after) := by
  have hserve : carry s (send call) = (some (act s call).1, (act s call).2) := rfl
  rw [hserve, h]

theorem carry_bind_ok {p : Request α} {f : α → Request β} {value : α}
    (h : carry s p = (some (.ok value), mid)) : carry s (p >>= f) = carry mid (f value) := by
  have hserve : serve p.run s = (some (.ok value), mid) := h
  unfold carry
  rw [Request.run_bind, serve_bind, hserve]

theorem carry_bind_error {p : Request α} {f : α → Request β} {fault : Fault}
    (h : carry s p = (some (.error fault), mid)) :
    carry s (p >>= f) = (some (.error fault), mid) := by
  have hserve : serve p.run s = (some (.error fault), mid) := h
  unfold carry
  rw [Request.run_bind, serve_bind, hserve]
  rfl

/-- What is attempted succeeds, with the outcome as its value. -/
theorem carry_attempt {p : Request α} {outcome : Outcome α}
    (h : carry s p = (some outcome, mid)) : carry s (attempt p) = (some (.ok outcome), mid) := by
  have hserve : serve p.run s = (some outcome, mid) := h
  have hattempt : (attempt p).run = p.run >>= fun attempted => .done (.ok attempted) := rfl
  unfold carry
  rw [hattempt, serve_bind, hserve]
  rfl

end World

end ClusterAccess
