/-
Requests that are cut short and made again.

A request writes to several places, and nothing takes its writes back.  When it is cut short, by
a fault or by its deadline, what it has written stays, and it is made again from there.  An
upstream is all that its calls reach: the bindings in a store that gives out versions, and a
control plane for the rest.  Nobody else writes.

  * What a cut leaves behind is one of the states that the request passes through when nothing
    disturbs it (`CutShort.passes`).
  * A request recovers when there are checkpoints that it never leaves, and from each of them it
    comes to one and the same state (`Recovers`).  Then it comes to that state after any number
    of attempts that were cut short (`Resumes.converges`).
  * A request may also come to where it can only fail, whenever it is made again.  Then it does
    not succeed any more once it has been cut short after that (`converges_of_blocked`).
  * A request that is composed of two recovers when both do, and the first finds nothing more to
    do at the checkpoints of the second (`Recovers.bind`).
-/
import ClusterAccess.Proofs.PolicyScopes
import ClusterAccess.Proofs.TrialRuns
import ClusterAccess.Proofs.BindingStore

namespace ClusterAccess

/-- What the calls of requests reach. -/
structure Upstream where
  /-- All but the bindings; the list of bindings that a control plane has is not used. -/
  plane : ControlPlane
  store : BindingStore

namespace Upstream

open Program (Makes)
open World (serve carry carry_bind_ok carry_bind_error)

variable {α β : Type} {up mid after final start : Upstream} {call : Call}

/-- Carries out a call. -/
def act (up : Upstream) (call : Call) : call.Reply × Upstream :=
  match up.store.answer call with
  | some (reply, store) => (reply, { up with store })
  | none => ((up.plane.act call).1, { up with plane := (up.plane.act call).2 })

instance : World Upstream := ⟨Upstream.act⟩

theorem answer_eq_none_iff {store : BindingStore} :
    store.answer call = none ↔ call.isAboutBindings = false := by
  cases call <;> simp [BindingStore.answer, Call.isAboutBindings, Call.writesBinding]

/-- What is not about bindings is carried out by the control plane. -/
theorem act_of_off (h : call.isAboutBindings = false) :
    up.act call = ((up.plane.act call).1, { up with plane := (up.plane.act call).2 }) := by
  unfold act
  rw [answer_eq_none_iff.2 h]

/-- What is about bindings is carried out by the store. -/
theorem act_of_answer {reply : call.Reply} {store : BindingStore}
    (h : up.store.answer call = some (reply, store)) :
    up.act call = (reply, { up with store }) := by
  unfold act
  rw [h]

/-- Reading changes nothing. -/
theorem act_of_not_isWrite (h : call.isWrite = false) : (up.act call).2 = up := by
  by_cases habout : call.isAboutBindings = true
  · cases call with
    | matchingBindings role => rfl
    | createBinding b => cases h
    | updateBinding b => cases h
    | deleteBinding ns name => cases h
    | _ => cases habout
  · rw [act_of_off (by simpa using habout), ControlPlane.act_of_not_isWrite h]

/-! ### Requests that nothing disturbs -/

theorem serve_of_off {p : Program Call Call.Reply α}
    (h : p.Makes fun call => call.isAboutBindings = false) (up : Upstream) :
    serve p up = ((serve p up.plane).1, { up with plane := (serve p up.plane).2 }) := by
  induction p generalizing up with
  | done value => rfl
  | call call next ih =>
      show serve (next (up.act call).1) (up.act call).2 = _
      rw [act_of_off h.1]
      exact ih (up.plane.act call).1 (h.2 _) _
  | unfinished => exact h.elim

/-- A request that is not about bindings is carried out by the control plane. -/
theorem carry_of_off {request : Request α} {outcome : Outcome α} {plane : ControlPlane}
    (h : request.run.Makes fun call => call.isAboutBindings = false)
    (hcarry : carry up.plane request = (some outcome, plane)) :
    carry up request = (some outcome, { up with plane }) := by
  have hserve : serve request.run up.plane = (some outcome, plane) := hcarry
  unfold carry
  rw [serve_of_off h, hserve]

/-! ### The states that a program passes through -/

/-- The program passes through a state when nothing disturbs it. -/
inductive Passes : Program Call Call.Reply α → Upstream → Upstream → Prop
  | here (p : Program Call Call.Reply α) (up : Upstream) : Passes p up up
  | call {call : Call} {next : call.Reply → Program Call Call.Reply α} {up mid : Upstream}
      (h : Passes (next (up.act call).1) (up.act call).2 mid) : Passes (.call call next) up mid

theorem passes_done_iff {value : α} :
    Passes (.done value : Program Call Call.Reply α) up mid ↔ mid = up := by
  refine ⟨?_, ?_⟩
  · intro h
    cases h
    rfl
  · intro hin
    obtain rfl := hin
    exact .here _ _

theorem passes_call_iff {next : call.Reply → Program Call Call.Reply α} :
    Passes (.call call next) up mid ↔
      mid = up ∨ Passes (next (up.act call).1) (up.act call).2 mid := by
  refine ⟨?_, ?_⟩
  · intro h
    cases h with
    | here => exact Or.inl rfl
    | call h => exact Or.inr h
  · intro hin
    rcases hin with rfl | h
    · exact .here _ _
    · exact .call h

/-- A program that makes no call stays where it is. -/
theorem Passes.eq_of_makes_none {p : Program Call Call.Reply α} (h : Passes p up mid)
    (hnone : p.Makes fun _ => False) : mid = up := by
  cases h with
  | here => rfl
  | call h => exact hnone.1.elim

/-- A program that makes one call passes through the states before and after it. -/
theorem Passes.of_once {next : call.Reply → Program Call Call.Reply α} {reply : call.Reply}
    (h : Passes (.call call next) up mid) (hact : up.act call = (reply, after))
    (hnone : ∀ reply, (next reply).Makes fun _ => False) : mid = up ∨ mid = after := by
  rcases passes_call_iff.1 h with rfl | h
  · exact Or.inl rfl
  · rw [h.eq_of_makes_none (hnone _), hact]
    exact Or.inr rfl

theorem Passes.of_attempt {g : call.Reply → Request β} {reply : call.Reply}
    (h : Passes (attempt (send call) >>= g).run up mid) (hact : up.act call = (reply, after))
    (hnone : ∀ reply, (g reply).run.Makes fun _ => False) : mid = up ∨ mid = after :=
  Passes.of_once h hact hnone

/-- A program that only reads stays where it is. -/
theorem Passes.eq_of_reads {p : Program Call Call.Reply α} (h : Passes p up mid)
    (hreads : p.Makes fun call => call.isWrite = false) : mid = up := by
  induction h with
  | here => rfl
  | call h ih =>
      rw [ih (hreads.2 _)]
      exact act_of_not_isWrite hreads.1

/-- A composed program passes through the states of its first part, and then of its second. -/
theorem Passes.bind_cases {p : Program Call Call.Reply α} {f : α → Program Call Call.Reply β}
    (h : Passes (p >>= f) up mid) :
    Passes p up mid ∨ ∃ value after, serve p up = (some value, after) ∧
      Passes (f value) after mid := by
  induction p generalizing up with
  | done value => exact Or.inr ⟨value, up, rfl, h⟩
  | call call next ih =>
      rcases passes_call_iff.1 h with rfl | h
      · exact Or.inl (.here _ _)
      rcases ih _ h with hfirst | hsecond
      · exact Or.inl (.call hfirst)
      · exact Or.inr hsecond
  | unfinished =>
      cases h
      exact Or.inl (.here _ _)

/-- A program passes through the state that it ends in. -/
theorem passes_of_serve {p : Program Call Call.Reply α} {value : α}
    (h : serve p up = (some value, after)) : Passes p up after := by
  induction p generalizing up with
  | done value =>
      obtain ⟨-, rfl⟩ := Prod.mk.inj h
      exact .here _ _
  | call call next ih => exact .call (ih _ h)
  | unfinished => cases (Prod.mk.inj h).1

/-- A composed request is in its first part, or that has succeeded and it is in the second. -/
theorem Passes.request_bind_cases {p : Request α} {f : α → Request β}
    (h : Passes (p >>= f).run up mid) :
    Passes p.run up mid ∨ ∃ value after, carry up p = (some (.ok value), after) ∧
      Passes (f value).run after mid := by
  rw [Request.run_bind] at h
  rcases h.bind_cases with hfirst | ⟨outcome, after, hserve, hsecond⟩
  · exact Or.inl hfirst
  cases outcome with
  | ok value => exact Or.inr ⟨value, after, hserve, hsecond⟩
  | error fault =>
      obtain rfl := passes_done_iff.1 hsecond
      exact Or.inl (passes_of_serve hserve)

/-- What comes after a reading starts where the reading did. -/
theorem Passes.bind_of_reads {p : Request α} {f : α → Request β} {value : α}
    (h : Passes (p >>= f).run up mid) (hreads : p.run.Makes fun call => call.isWrite = false)
    (hcarry : carry up p = (some (.ok value), up)) : Passes (f value).run up mid := by
  rcases h.request_bind_cases with hfirst | ⟨other, after, hother, hsecond⟩
  · rw [hfirst.eq_of_reads hreads]
    exact .here _ _
  · obtain ⟨hvalue, rfl⟩ := Prod.mk.inj (hcarry.symm.trans hother)
    obtain rfl := Except.ok.inj (Option.some.inj hvalue)
    exact hsecond

/-! ### Attempts that are cut short -/

/-- What an attempt leaves behind that is cut short: the fault of a call, or the deadline, ends
it before it makes another one.  What the last call replied, if it did, makes no difference. -/
inductive CutShort : Program Call Call.Reply (Outcome α) → Upstream → Upstream → Prop
  /-- The call that was due has not taken effect. -/
  | lost (call : Call) (next : call.Reply → Program Call Call.Reply (Outcome α)) (up : Upstream) :
      CutShort (.call call next) up up
  /-- The call that was due has taken effect. -/
  | landed (call : Call) (next : call.Reply → Program Call Call.Reply (Outcome α))
      (up : Upstream) : CutShort (.call call next) up (up.act call).2
  /-- Nothing went wrong on the way, but the request failed. -/
  | refused (fault : Fault) (up : Upstream) : CutShort (.done (.error fault)) up up
  /-- A call was answered, and the attempt is cut short later. -/
  | answered {call : Call} {next : call.Reply → Program Call Call.Reply (Outcome α)}
      {up after : Upstream} (h : CutShort (next (up.act call).1) (up.act call).2 after) :
      CutShort (.call call next) up after

/-- Any number of attempts that are cut short, one after another. -/
inductive Retried (request : Request α) (start : Upstream) : Upstream → Prop
  | never : Retried request start start
  | again {mid after : Upstream} (h : Retried request start mid)
      (hcut : CutShort request.run mid after) : Retried request start after

/-- Cut short, a request leaves what it would have passed through. -/
theorem CutShort.passes {p : Program Call Call.Reply (Outcome α)} (h : CutShort p up after) :
    Passes p up after := by
  induction h with
  | lost call next up => exact .here _ _
  | landed call next up => exact .call (.here _ _)
  | refused fault up => exact .here _ _
  | answered h ih => exact .call ih

/-! ### Recovery -/

/-- From each of the checkpoints the request comes to the final state, with an outcome of a
kind, and it leaves the checkpoints nowhere on the way. -/
structure Recovers (request : Request α) (Ends : Outcome α → Prop) (Checkpoint : Upstream → Prop)
    (final : Upstream) : Prop where
  carries : ∀ up, Checkpoint up → ∃ outcome, carry up request = (some outcome, final) ∧ Ends outcome
  closed : ∀ up mid, Checkpoint up → Passes request.run up mid → Checkpoint mid

/-- Wherever the request is cut short on its way from the state, it comes to the same end when it
is made again. -/
def Resumes (request : Request α) (start : Upstream) : Prop :=
  ∃ Checkpoint final succeeds, Checkpoint start ∧
    Recovers request (fun outcome => outcome.isOk = succeeds) Checkpoint final

/-- The request resumes, and keeps to the bindings. -/
def ResumesInStore (request : Request α) (start : Upstream) : Prop :=
  ∃ Checkpoint final succeeds, Checkpoint start ∧
    (∀ other, Checkpoint other → other.plane = start.plane) ∧
      Recovers request (fun outcome => outcome.isOk = succeeds) Checkpoint final

variable {Ends : Outcome α → Prop} {Checkpoint : Upstream → Prop} {request : Request α}

theorem Recovers.of_retried (h : Recovers request Ends Checkpoint final) (hstart : Checkpoint start)
    (hretried : Retried request start mid) : Checkpoint mid := by
  induction hretried with
  | never => exact hstart
  | again _ hcut ih => exact h.closed _ _ ih hcut.passes

/-- What succeeds after attempts that were cut short succeeds at once, and leaves the same. -/
def Converges (request : Request α) (start : Upstream) : Prop :=
  ∀ mid result after, Retried request start mid → carry mid request = (some (.ok result), after) →
    ∃ first, carry start request = (some (.ok first), after)

/-- A request that only fails once it has left its start converges. -/
theorem converges_of_blocked {Blocked : Upstream → Prop}
    (hpasses : ∀ mid, Passes request.run start mid → mid = start ∨ Blocked mid)
    (hblocked : ∀ up, Blocked up → ∃ fault, Recovers request (· = .error fault) (· = up) up) :
    Converges request start := by
  have hstates : ∀ mid, Retried request start mid → mid = start ∨ Blocked mid := by
    intro mid hretried
    induction hretried with
    | never => exact Or.inl rfl
    | @again mid after _ hcut ih =>
        rcases ih with rfl | hmid
        · exact hpasses after hcut.passes
        · obtain ⟨fault, hrecovers⟩ := hblocked mid hmid
          rw [hrecovers.closed mid after rfl hcut.passes]
          exact Or.inr hmid
  intro mid result after hretried hlast
  rcases hstates mid hretried with rfl | hmid
  · exact ⟨result, hlast⟩
  · obtain ⟨fault, hrecovers⟩ := hblocked mid hmid
    obtain ⟨outcome, hcarry, rfl⟩ := hrecovers.carries mid rfl
    cases (Prod.mk.inj (hlast.symm.trans hcarry)).1

/-- A request that resumes converges. -/
theorem Resumes.converges (h : Resumes request start) : Converges request start := by
  intro mid result after hretried hlast
  obtain ⟨Checkpoint, final, succeeds, hstart, hrecovers⟩ := h
  obtain ⟨outcome, hmid, hends⟩ := hrecovers.carries mid (hrecovers.of_retried hstart hretried)
  obtain ⟨hresult, rfl⟩ := Prod.mk.inj (hlast.symm.trans hmid)
  obtain rfl := Option.some.inj hresult
  obtain ⟨first, hfirst, hsame⟩ := hrecovers.carries start hstart
  cases first with
  | ok first => exact ⟨first, hfirst⟩
  | error fault => cases hsame.trans hends.symm

theorem Recovers.mono {Weak : Outcome α → Prop} (h : Recovers request Ends Checkpoint final)
    (hweak : ∀ outcome, Ends outcome → Weak outcome) : Recovers request Weak Checkpoint final where
  carries up hup := by
    obtain ⟨outcome, hcarry, hends⟩ := h.carries up hup
    exact ⟨outcome, hcarry, hweak outcome hends⟩
  closed := h.closed

/-- A request that stays where it is has one checkpoint. -/
theorem recovers_of_still {outcome : Outcome α} (hcarry : carry up request = (some outcome, up))
    (hstill : ∀ mid, Passes request.run up mid → mid = up) :
    Recovers request (· = outcome) (· = up) up where
  carries other hother := by
    subst hother
    exact ⟨outcome, hcarry, rfl⟩
  closed other mid hother hpasses := by
    subst hother
    exact hstill mid hpasses

theorem recovers_of_reads {outcome : Outcome α} (hcarry : carry up request = (some outcome, up))
    (hreads : request.run.Makes fun call => call.isWrite = false) :
    Recovers request (· = outcome) (· = up) up :=
  recovers_of_still hcarry fun _ hpasses => hpasses.eq_of_reads hreads

/-- A request whose one write leaves nothing more to do has two checkpoints. -/
theorem Recovers.of_write {outcome : Outcome α} (hcarry : carry up request = (some outcome, after))
    (hends : Ends outcome)
    (hpasses : ∀ mid, Passes request.run up mid → mid = up ∨ mid = after)
    (hagain : Recovers request Ends (· = after) after) :
    Recovers request Ends (fun mid => mid = up ∨ mid = after) after where
  carries other hother := by
    rcases hother with rfl | hafter
    · exact ⟨outcome, hcarry, hends⟩
    · exact hagain.carries other hafter
  closed other mid hother hmid := by
    rcases hother with rfl | hafter
    · exact hpasses mid hmid
    · exact Or.inr (hagain.closed other mid hafter hmid)

section Bind

variable {p : Request α} {f : α → Request β} {value : α} {fault : Fault}
  {First Second : Upstream → Prop} {EndsLast : Outcome β → Prop}

/-- The checkpoints of two requests in a row are those of both.  At those of the second, the first
has nothing to do. -/
theorem Recovers.bind (hfirst : Recovers p (· = .ok value) First mid) (hmid : Second mid)
    (hstays : ∀ up, Second up → Recovers p (· = .ok value) (· = up) up)
    (hsecond : Recovers (f value) EndsLast Second final) :
    Recovers (p >>= f) EndsLast (fun up => First up ∨ Second up) final where
  carries up hup := by
    rcases hup with hup | hup
    · obtain ⟨outcome, hcarry, rfl⟩ := hfirst.carries up hup
      rw [carry_bind_ok hcarry]
      exact hsecond.carries mid hmid
    · obtain ⟨outcome, hcarry, rfl⟩ := (hstays up hup).carries up rfl
      rw [carry_bind_ok hcarry]
      exact hsecond.carries up hup
  closed up other hup hpasses := by
    -- Where the first part has ended says at which checkpoint of the second this one begins.
    have hpart : ∀ Begin after, Recovers p (· = .ok value) Begin after → Begin up →
        Begin other ∨ Passes (f value).run after other := by
      intro Begin after hrecovers hbegin
      obtain ⟨outcome, hcarry, rfl⟩ := hrecovers.carries up hbegin
      rcases hpasses.request_bind_cases with hin | ⟨found, end', hfound, hin⟩
      · exact Or.inl (hrecovers.closed up other hbegin hin)
      · obtain ⟨hvalue, rfl⟩ := Prod.mk.inj (hcarry.symm.trans hfound)
        obtain rfl := Except.ok.inj (Option.some.inj hvalue)
        exact Or.inr hin
    rcases hup with hup | hup
    · rcases hpart First mid hfirst hup with hin | hin
      · exact Or.inl hin
      · exact Or.inr (hsecond.closed mid other hmid hin)
    · rcases hpart (· = up) up (hstays up hup) rfl with rfl | hin
      · exact Or.inr hup
      · exact Or.inr (hsecond.closed up other hup hin)

/-- A request that finds nothing to do when it has looked stays where it is. -/
theorem recovers_of_look {outcome : Outcome β}
    (hreads : p.run.Makes fun call => call.isWrite = false)
    (hlook : carry up p = (some (.ok value), up)) (hrest : f value = ofOutcome outcome) :
    Recovers (p >>= f) (· = outcome) (· = up) up := by
  refine recovers_of_still ?_ fun mid hpasses => ?_
  · rw [carry_bind_ok hlook, hrest]
    rfl
  · have hpart := hpasses.bind_of_reads hreads hlook
    rw [hrest] at hpart
    exact passes_done_iff.1 hpart

/-- A request that writes once when it has looked recovers if it finds nothing more to do then. -/
theorem Recovers.of_look {outcome : Outcome β}
    (hreads : p.run.Makes fun call => call.isWrite = false)
    (hlook : carry up p = (some (.ok value), up))
    (hcarry : carry up (f value) = (some outcome, after)) (hends : EndsLast outcome)
    (hpasses : ∀ mid, Passes (f value).run up mid → mid = up ∨ mid = after)
    (hagain : Recovers (p >>= f) EndsLast (· = after) after) :
    Recovers (p >>= f) EndsLast (fun mid => mid = up ∨ mid = after) after :=
  .of_write ((carry_bind_ok hlook).trans hcarry) hends
    (fun mid hin => hpasses mid (hin.bind_of_reads hreads hlook)) hagain

/-- Nothing comes after a request that fails. -/
theorem Recovers.bind_error {First : Upstream → Prop}
    (h : Recovers p (· = .error fault) First final) (hends : EndsLast (.error fault)) :
    Recovers (p >>= f) EndsLast First final where
  carries up hup := by
    obtain ⟨outcome, hcarry, rfl⟩ := h.carries up hup
    exact ⟨.error fault, carry_bind_error hcarry, hends⟩
  closed up other hup hpasses := by
    obtain ⟨outcome, hcarry, rfl⟩ := h.carries up hup
    rcases hpasses.request_bind_cases with hin | ⟨found, end', hfound, -⟩
    · exact h.closed up other hup hin
    · cases (Prod.mk.inj (hcarry.symm.trans hfound)).1

theorem Passes.of_map {g : α → β} (h : Passes (p >>= fun result => pure (g result)).run up mid) :
    Passes p.run up mid := by
  rcases h.request_bind_cases with hin | ⟨result, after, hcarry, hin⟩
  · exact hin
  · rw [passes_done_iff.1 hin]
    exact passes_of_serve hcarry

/-- What is made of the result afterwards makes no difference. -/
theorem Recovers.map (h : Recovers p Ends First final) (g : α → β)
    (hends : ∀ outcome, Ends outcome → EndsLast (outcome.map g)) :
    Recovers (p >>= fun result => pure (g result)) EndsLast First final where
  carries up hup := by
    obtain ⟨outcome, hcarry, hend⟩ := h.carries up hup
    refine ⟨outcome.map g, ?_, hends outcome hend⟩
    cases outcome with
    | ok result => exact carry_bind_ok hcarry
    | error fault => exact carry_bind_error hcarry
  closed up mid hup hpasses := h.closed up mid hup hpasses.of_map

theorem isOk_map (g : α → β) (outcome : Outcome α) : (outcome.map g).isOk = outcome.isOk := by
  cases outcome <;> rfl

theorem Resumes.map (h : Resumes p start) (g : α → β) :
    Resumes (p >>= fun result => pure (g result)) start := by
  obtain ⟨Checkpoint, final, succeeds, hstart, hrecovers⟩ := h
  refine ⟨Checkpoint, final, succeeds, hstart, hrecovers.map g fun outcome hend => ?_⟩
  rwa [isOk_map]

theorem ResumesInStore.map (h : ResumesInStore p start) (g : α → β) :
    ResumesInStore (p >>= fun result => pure (g result)) start := by
  obtain ⟨Checkpoint, final, succeeds, hstart, hplane, hrecovers⟩ := h
  refine ⟨Checkpoint, final, succeeds, hstart, hplane, hrecovers.map g fun outcome hend => ?_⟩
  rwa [isOk_map]

end Bind

/-- A request that stays where it is resumes. -/
theorem Recovers.resumesInStore {outcome : Outcome α}
    (h : Recovers request (· = outcome) (· = start) start) : ResumesInStore request start := by
  refine ⟨(· = start), start, outcome.isOk, rfl, fun other hother => by rw [hother], h.mono ?_⟩
  intro found hfound
  rw [hfound]

theorem ResumesInStore.resumes (h : ResumesInStore request start) : Resumes request start := by
  obtain ⟨Checkpoint, final, succeeds, hstart, -, hrecovers⟩ := h
  exact ⟨Checkpoint, final, succeeds, hstart, hrecovers⟩

/-- A request that fails at once has nothing to recover from. -/
theorem resumes_of_throw (fault : Fault) : Resumes (throw fault : Request α) start := by
  have hcarry : carry start (throw fault : Request α) = (some (.error fault), start) := rfl
  exact (recovers_of_reads hcarry trivial).resumesInStore.resumes

end Upstream

end ClusterAccess
