/-
What a trial does.

A trial carries out the calls of a program one after another.  Its rules may make a call
fail, and then the control plane stays as it is; every other call is answered by the control
plane.  So all that a request has done is told by a history of calls in which each reply
is the control plane's, or a fault of a call that may fail (`Acts`).  Delays only move the
clock, and a deadline that is missed leaves no outcome.

Histories of single requests are analysed elsewhere.  What is added here is that a trial
that comes to an outcome has such a history (`acts_of_run`), also when the request has a
deadline (`acts_of_runTimed`).
-/
import ClusterAccess.ControlPlane.Trial
import ClusterAccess.Proofs.History

namespace ClusterAccess

open Program (After History)

/-! ### Calls to a control plane -/

namespace ControlPlane

/-- The calls of a history come to a control plane one after another.  One that may fail can get a
fault instead of its answer, and does nothing then. -/
inductive Acts (mayFail : Call → Prop) :
    ControlPlane → History Call Call.Reply → ControlPlane → Prop
  | nil (plane : ControlPlane) : Acts mayFail plane [] plane
  | acted {plane after : ControlPlane} {history : History Call Call.Reply} (call : Call)
      (h : Acts mayFail (plane.act call).2 history after) :
      Acts mayFail plane (⟨call, (plane.act call).1⟩ :: history) after
  | failed {plane after : ControlPlane} {history : History Call Call.Reply} {call : Call}
      (hcall : mayFail call) (fault : Fault) (h : Acts mayFail plane history after) :
      Acts mayFail plane (⟨call, .error fault⟩ :: history) after

variable {mayFail : Call → Prop} {plane after : ControlPlane}
  {history later : History Call Call.Reply} {call : Call} {reply : call.Reply}

theorem acts_nil_iff : Acts mayFail plane [] after ↔ after = plane := by
  refine ⟨?_, ?_⟩
  · intro h
    cases h
    rfl
  · intro hin
    obtain rfl := hin
    exact .nil _

theorem acts_cons_iff : Acts mayFail plane (⟨call, reply⟩ :: history) after ↔
    reply = (plane.act call).1 ∧ Acts mayFail (plane.act call).2 history after ∨
      mayFail call ∧ (∃ fault, reply = .error fault) ∧ Acts mayFail plane history after := by
  refine ⟨?_, ?_⟩
  · intro h
    cases h with
    | acted _ h => exact Or.inl ⟨rfl, h⟩
    | failed hcall fault h => exact Or.inr ⟨hcall, ⟨fault, rfl⟩, h⟩
  · intro hin
    rcases hin with ⟨rfl, h⟩ | ⟨hcall, ⟨fault, rfl⟩, h⟩
    · exact .acted call h
    · exact .failed hcall fault h

theorem acts_append_iff : Acts mayFail plane (history ++ later) after ↔
    ∃ mid, Acts mayFail plane history mid ∧ Acts mayFail mid later after := by
  induction history generalizing plane with
  | nil => simp [acts_nil_iff]
  | cons event history ih =>
      obtain ⟨call, reply⟩ := event
      simp only [List.cons_append, acts_cons_iff, ih]
      refine ⟨?_, ?_⟩
      · intro hin
        rcases hin with ⟨hreply, mid, hmid, hafter⟩ | ⟨hcall, hreply, mid, hmid, hafter⟩
        · exact ⟨mid, Or.inl ⟨hreply, hmid⟩, hafter⟩
        · exact ⟨mid, Or.inr ⟨hcall, hreply, hmid⟩, hafter⟩
      · intro hin
        obtain ⟨mid, ⟨hreply, hmid⟩ | ⟨hcall, hreply, hmid⟩, hafter⟩ := hin
        · exact Or.inl ⟨hreply, mid, hmid, hafter⟩
        · exact Or.inr ⟨hcall, hreply, mid, hmid, hafter⟩

theorem Acts.mono {mayFail' : Call → Prop} (h : Acts mayFail plane history after)
    (hless : ∀ call, mayFail call → mayFail' call) : Acts mayFail' plane history after := by
  induction h with
  | nil => exact .nil _
  | acted call _ ih => exact .acted call ih
  | failed hcall fault _ ih => exact .failed (hless _ hcall) fault ih

/-- What succeeded was answered by the control plane. -/
theorem Acts.of_ok {answer : call.Answer}
    (h : Acts mayFail plane (⟨call, .ok answer⟩ :: history) after) :
    (plane.act call).1 = .ok answer ∧ Acts mayFail (plane.act call).2 history after := by
  rcases acts_cons_iff.1 h with ⟨hreply, h⟩ | ⟨-, ⟨fault, hne⟩, -⟩
  · exact ⟨hreply.symm, h⟩
  · cases hne

/-- What may not fail was answered by the control plane. -/
theorem Acts.of_sure (h : Acts mayFail plane (⟨call, reply⟩ :: history) after)
    (hsure : ¬mayFail call) :
    reply = (plane.act call).1 ∧ Acts mayFail (plane.act call).2 history after := by
  rcases acts_cons_iff.1 h with h | ⟨hcall, -⟩
  · exact h
  · exact absurd hcall hsure

theorem act_of_not_isWrite (h : call.isWrite = false) : (plane.act call).2 = plane := by
  cases call <;> first | rfl | cases h

/-- Reading changes nothing. -/
theorem Acts.eq_of_reads (h : Acts mayFail plane history after)
    (hreads : ∀ event ∈ history, event.1.isWrite = false) : after = plane := by
  induction h with
  | nil => rfl
  | acted call _ ih =>
      rw [ih fun event hevent => hreads event (List.mem_cons_of_mem _ hevent)]
      exact act_of_not_isWrite (hreads _ List.mem_cons_self)
  | failed _ _ _ ih => exact ih fun event hevent => hreads event (List.mem_cons_of_mem _ hevent)

end ControlPlane

/-! ### Rules -/

namespace FaultRule

variable {call other : Call} {rules : List FaultRule}

/-- The first rule lets the call pass, or makes it fail.  It is about the same calls afterwards. -/
theorem search_cons (call : Call) (rule : FaultRule) (rules : List FaultRule) : ∃ changed : FaultRule,
    (∀ other, changed.isAbout other = rule.isAbout other) ∧
      (search call (rule :: rules) = ((search call rules).1, changed :: (search call rules).2) ∨
        rule.isAbout call = true ∧
          search call (rule :: rules) = (some rule.fault, changed :: rules)) := by
  obtain ⟨name, argument, skip, times, fault⟩ := rule
  rw [search]
  by_cases habout : isAbout ⟨name, argument, skip, times, fault⟩ call = true
  · simp only [habout, Bool.not_true, Bool.false_eq_true, if_false]
    cases skip with
    | succ skip => exact ⟨⟨name, argument, skip, times, fault⟩, fun _ => rfl, Or.inl rfl⟩
    | zero =>
        cases times with
        | none =>
            exact ⟨⟨name, argument, 0, none, fault⟩, fun _ => rfl, Or.inr ⟨trivial, rfl⟩⟩
        | some times =>
            cases times with
            | zero => exact ⟨⟨name, argument, 0, some 0, fault⟩, fun _ => rfl, Or.inl rfl⟩
            | succ times =>
                exact ⟨⟨name, argument, 0, some times, fault⟩, fun _ => rfl,
                  Or.inr ⟨trivial, rfl⟩⟩
  · simp only [habout, Bool.not_false, if_true]
    exact ⟨_, fun _ => rfl, Or.inl rfl⟩

/-- Afterwards the rules are about no calls that they were not about before. -/
theorem isAbout_of_mem_search {rule : FaultRule} (hrule : rule ∈ (search call rules).2)
    (habout : rule.isAbout other = true) : ∃ rule ∈ rules, rule.isAbout other = true := by
  induction rules with
  | nil => cases hrule
  | cons first rest ih =>
      obtain ⟨changed, hsame, heq | ⟨-, heq⟩⟩ := search_cons call first rest
      · rw [heq] at hrule
        rcases List.mem_cons.1 hrule with rfl | hrest
        · exact ⟨first, List.mem_cons_self, hsame other ▸ habout⟩
        · obtain ⟨found, hfound, hother⟩ := ih hrest
          exact ⟨found, List.mem_cons_of_mem _ hfound, hother⟩
      · rw [heq] at hrule
        rcases List.mem_cons.1 hrule with rfl | hrest
        · exact ⟨first, List.mem_cons_self, hsame other ▸ habout⟩
        · exact ⟨rule, List.mem_cons_of_mem _ hrest, habout⟩

/-- A call fails only if some rule is about it. -/
theorem isAbout_of_search {fault : Fault} (h : (search call rules).1 = some fault) :
    ∃ rule ∈ rules, rule.isAbout call = true := by
  induction rules with
  | nil => cases h
  | cons first rest ih =>
      obtain ⟨changed, -, heq | ⟨habout, -⟩⟩ := search_cons call first rest
      · rw [heq] at h
        obtain ⟨found, hfound, habout⟩ := ih h
        exact ⟨found, List.mem_cons_of_mem _ hfound, habout⟩
      · exact ⟨first, List.mem_cons_self, habout⟩

end FaultRule

namespace Trial

variable {σ α β : Type} {s s' : σ}

/-! ### Running programs -/

/-- A run is told by its result and the state that it leaves. -/
theorem run_eq {x : Run σ α} {result : Option α} (h : (x.run s).1 = result) :
    x.run s = (result, (x.run s).2) := by
  subst h
  rfl

theorem run_bind (x : Run σ α) (f : α → Run σ β) (s : σ) :
    (x >>= f).run s =
      match x.run s with
      | (some value, mid) => (f value).run mid
      | (none, mid) => (none, mid) := by
  show (x >>= f) s = _
  simp only [bind, OptionT.bind, OptionT.mk, StateT.bind]
  cases hx : x.run s with
  | mk first mid =>
      have hx' : x s = (first, mid) := hx
      rw [hx']
      cases first <;> rfl

/-- Two actions in a row that come to an end have both come to one. -/
theorem run_bind_eq_some {x : Run σ α} {f : α → Run σ β} {value : β} :
    (x >>= f).run s = (some value, s') ↔
      ∃ first mid, x.run s = (some first, mid) ∧ (f first).run mid = (some value, s') := by
  rw [run_bind]
  cases x.run s with
  | mk first mid =>
      refine ⟨?_, ?_⟩
      · intro h
        cases first with
        | none => cases h
        | some first => exact ⟨first, mid, rfl, h⟩
      · intro hin
        obtain ⟨first, mid, heq, h⟩ := hin
        cases heq
        exact h

variable {limit : Option Nat} {t after : Trial}

/-- Waiting only moves the clock. -/
theorem wait_eq_some {duration : Nat} (h : (wait limit duration).run t = (some (), after)) :
    ∃ now, after = { t with now } := by
  obtain ⟨trial, mid, hget, h⟩ := run_bind_eq_some.1 h
  cases hget
  dsimp only at h
  split at h
  · cases h
    exact ⟨_, rfl⟩
  · split at h
    · cases h
      exact ⟨_, rfl⟩
    · cases h

/-- Some rule is about the call. -/
def MayFail (t : Trial) (call : Call) : Prop :=
  ∃ rule ∈ t.faults, rule.isAbout call = true

theorem not_mayFail (h : t.faults = []) (call : Call) : ¬t.MayFail call := by
  intro hfail
  obtain ⟨rule, hrule, -⟩ := hfail
  rw [h] at hrule
  cases hrule

/-- A call that is carried out is answered by the control plane, or fails. -/
theorem perform_eq_some {call : Call} {reply : call.Reply} (hserver : t.server = none)
    (h : (perform limit call).run t = (some reply, after)) :
    after.server = none ∧ (∀ other, after.MayFail other → t.MayFail other) ∧
      (reply = (t.plane.act call).1 ∧ after.plane = (t.plane.act call).2 ∨
        t.MayFail call ∧ (∃ fault, reply = .error fault) ∧ after.plane = t.plane) := by
  -- One step of the action after another, up to the waiting and then up to the rules.
  obtain ⟨_, _, hget, h⟩ := run_bind_eq_some.1 h
  cases hget
  simp only [hserver] at h
  obtain ⟨_, _, hcount, h⟩ := run_bind_eq_some.1 h
  cases hcount
  obtain ⟨_, _, hget, h⟩ := run_bind_eq_some.1 h
  cases hget
  obtain ⟨_, _, hwait, h⟩ := run_bind_eq_some.1 h
  obtain ⟨now, rfl⟩ := wait_eq_some hwait
  obtain ⟨_, _, hget, h⟩ := run_bind_eq_some.1 h
  cases hget
  dsimp only at h
  have hrules : ∀ other rule, rule ∈ (FaultRule.search call t.faults).2 →
      rule.isAbout other = true → t.MayFail other :=
    fun other rule hrule habout => FaultRule.isAbout_of_mem_search hrule habout
  cases hsearch : FaultRule.search call t.faults with
  | mk found rules =>
      rw [hsearch] at h hrules
      have hfail : ∀ other, (∃ rule ∈ rules, rule.isAbout other = true) → t.MayFail other := by
        intro other hother
        obtain ⟨rule, hrule, habout⟩ := hother
        exact hrules other rule hrule habout
      cases found with
      | some fault =>
          cases h
          exact ⟨hserver, hfail,
            Or.inr ⟨FaultRule.isAbout_of_search (congrArg Prod.fst hsearch), ⟨fault, rfl⟩, rfl⟩⟩
      | none =>
          cases h
          exact ⟨hserver, hfail, Or.inl ⟨rfl, rfl⟩⟩

/-- **What a trial has done is told by a history of calls.** -/
theorem acts_of_run {p : Program Call Call.Reply α} {value : α} (hserver : t.server = none)
    (h : (p.run (perform limit)).run t = (some value, after)) :
    (∃ history, After p history (.done value) ∧
        ControlPlane.Acts t.MayFail t.plane history after.plane) ∧
      after.server = none ∧ ∀ call, after.MayFail call → t.MayFail call := by
  induction p generalizing t with
  | done result =>
      cases h
      exact ⟨⟨[], .start _, .nil _⟩, hserver, fun _ hcall => hcall⟩
  | call call next ih =>
      obtain ⟨reply, mid, hperform, hnext⟩ := run_bind_eq_some.1 h
      obtain ⟨hmid, hfail, hact⟩ := perform_eq_some hserver hperform
      obtain ⟨⟨history, hafter, hacts⟩, hend, hless⟩ := ih reply hmid hnext
      have hacts := hacts.mono hfail
      refine ⟨⟨⟨call, reply⟩ :: history, .reply hafter, ?_⟩, hend, fun other hother => ?_⟩
      · rw [ControlPlane.acts_cons_iff]
        rcases hact with ⟨hreply, hplane⟩ | ⟨hcall, hreply, hplane⟩
        · exact Or.inl ⟨hreply, hplane ▸ hacts⟩
        · exact Or.inr ⟨hcall, hreply, hplane ▸ hacts⟩
      · exact hfail other (hless other hother)
  | unfinished => cases h

/-- A request that was in time has run to its end. -/
theorem acts_of_runTimed {timed : Provisioning.Timed α} {value : α} (hserver : t.server = none)
    (h : (runTimed timed).run t = (some (.ok value), after)) :
    (∃ history, After timed.request.run history (.done (.ok value)) ∧
        ControlPlane.Acts t.MayFail t.plane history after.plane) ∧
      after.server = none ∧ ∀ call, after.MayFail call → t.MayFail call := by
  obtain ⟨_, _, hget, h⟩ := run_bind_eq_some.1 h
  cases hget
  dsimp only at h
  cases hrun : (runRequest (timed.deadline.map fun seconds => t.now + seconds * 1000)
      timed.request).run t with
  | mk result last =>
      rw [hrun] at h
      cases result with
      | none => cases h
      | some outcome =>
          cases h
          exact acts_of_run hserver hrun

/-! ### Trials that nothing disturbs -/

/-- Nothing makes a call slow or fail. -/
structure Undisturbed (t : Trial) : Prop where
  server : t.server = none
  delays : t.delays = []
  faults : t.faults = []

/-- Then every call is carried out, and one that only reads is not among the writes. -/
theorem Undisturbed.perform (h : t.Undisturbed) (limit : Option Nat) (call : Call) :
    ∃ after, (Trial.perform limit call).run t = (some (t.plane.act call).1, after) ∧
      after.plane = (t.plane.act call).2 ∧ after.Undisturbed ∧
      (call.isWrite = false → after.writes = t.writes) := by
  obtain ⟨plane, delays, faults, server, now, counts, writes⟩ := t
  obtain ⟨rfl, rfl, rfl⟩ := h
  refine ⟨_, rfl, rfl, ⟨rfl, rfl, rfl⟩, fun hread => ?_⟩
  show (if call.isWrite && _ then _ else writes) = writes
  rw [hread]
  rfl

/-- What a control plane does is what such a trial does. -/
theorem Undisturbed.run_of_acts {p : Program Call Call.Reply α} {value : α}
    {mayFail : Call → Prop} {history : History Call Call.Reply} {plane : ControlPlane}
    (h : t.Undisturbed) (limit : Option Nat) (hafter : After p history (.done value))
    (hsure : ∀ call, ¬mayFail call) (hacts : t.plane.Acts mayFail history plane) :
    ∃ after, (p.run (Trial.perform limit)).run t = (some value, after) ∧ after.plane = plane ∧
      ((∀ event ∈ history, event.1.isWrite = false) → after.writes = t.writes) := by
  induction p generalizing t history with
  | done result =>
      cases hafter
      rw [ControlPlane.acts_nil_iff.1 hacts]
      exact ⟨t, rfl, rfl, fun _ => rfl⟩
  | call call next ih =>
      cases hafter with
      | reply hrest =>
          obtain ⟨rfl, hlater⟩ := hacts.of_sure (hsure call)
          obtain ⟨mid, hperform, hplane, hmid, hwrites⟩ := h.perform limit call
          rw [← hplane] at hlater
          obtain ⟨after, hrun, hend, hkept⟩ := ih _ hmid hrest hlater
          refine ⟨after, run_bind_eq_some.2 ⟨_, mid, hperform, hrun⟩, hend, fun hreads => ?_⟩
          obtain ⟨hread, hreads⟩ := List.forall_mem_cons.1 hreads
          exact (hkept hreads).trans (hwrites hread)
  | unfinished => cases hafter

/-- No deadline is missed either. -/
theorem Undisturbed.runTimed_of_acts {timed : Provisioning.Timed α} {outcome : Outcome α}
    {mayFail : Call → Prop} {history : History Call Call.Reply} {plane : ControlPlane}
    (h : t.Undisturbed) (hafter : After timed.request.run history (.done outcome))
    (hsure : ∀ call, ¬mayFail call) (hacts : t.plane.Acts mayFail history plane) :
    ∃ after, (runTimed timed).run t = (some outcome, after) ∧ after.plane = plane ∧
      ((∀ event ∈ history, event.1.isWrite = false) → after.writes = t.writes) := by
  obtain ⟨after, hrun, hplane, hwrites⟩ := h.run_of_acts
    (timed.deadline.map fun seconds => t.now + seconds * 1000) hafter hsure hacts
  have hrequest : (runRequest (timed.deadline.map fun seconds => t.now + seconds * 1000)
      timed.request).run t = (some outcome, after) := hrun
  refine ⟨after, run_bind_eq_some.2 ⟨t, t, rfl, ?_⟩, hplane, hwrites⟩
  dsimp only
  rw [hrequest]
  rfl

end Trial

end ClusterAccess
