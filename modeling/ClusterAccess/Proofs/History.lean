/-
What a program has done, and what it has left to do.

A program is a tree, and how far it has come is told by the calls it has made and the
replies it got.  `After p history q` says that a program `p` with that history has the
program `q` left.  Nothing is said about who replied: the same history may come from a
store that serves one request at a time, or from one that serves many at once, so what
is shown here holds for both.

Two facts are needed of a program in what follows.

  * Where it can be.  A program that is composed of two is in the first one, or it has
    ended the first and is in the second (`after_bind_iff`).
  * What it can ask for.  `Makes P p` says that every call of the tree satisfies `P`,
    whatever the replies are, and that the tree is finished.  Then every call that is ever
    made satisfies `P` (`Makes.call`).
-/
import ClusterAccess.Call

namespace ClusterAccess.Program

variable {Op : Type} {Reply : Op → Type} {α β : Type}

/-- The calls that were made with the replies that they got, the first one first. -/
abbrev History (Op : Type) (Reply : Op → Type) := List ((op : Op) × Reply op)

/-- The program that is left after a history. -/
inductive After : Program Op Reply α → History Op Reply → Program Op Reply α → Prop
  | start (p : Program Op Reply α) : After p [] p
  | reply {op : Op} {next : Reply op → Program Op Reply α} {reply : Reply op}
      {history : History Op Reply} {q : Program Op Reply α} (h : After (next reply) history q) :
      After (.call op next) (⟨op, reply⟩ :: history) q

variable {p q r : Program Op Reply α} {history later : History Op Reply}

theorem after_done_iff {value : α} :
    After (.done value : Program Op Reply α) history q ↔ history = [] ∧ q = .done value := by
  refine ⟨?_, ?_⟩
  · intro h
    cases h
    exact ⟨rfl, rfl⟩
  · intro hin
    obtain ⟨rfl, rfl⟩ := hin
    exact .start _

theorem after_unfinished_iff :
    After (.unfinished : Program Op Reply α) history q ↔ history = [] ∧ q = .unfinished := by
  refine ⟨?_, ?_⟩
  · intro h
    cases h
    exact ⟨rfl, rfl⟩
  · intro hin
    obtain ⟨rfl, rfl⟩ := hin
    exact .start _

theorem after_call_iff {op : Op} {next : Reply op → Program Op Reply α} :
    After (.call op next) history q ↔
      history = [] ∧ q = .call op next ∨
        ∃ reply rest, history = ⟨op, reply⟩ :: rest ∧ After (next reply) rest q := by
  refine ⟨?_, ?_⟩
  · intro h
    cases h with
    | start => exact Or.inl ⟨rfl, rfl⟩
    | reply h => exact Or.inr ⟨_, _, rfl, h⟩
  · intro hin
    rcases hin with ⟨rfl, rfl⟩ | ⟨reply, rest, rfl, h⟩
    · exact .start _
    · exact .reply h

theorem After.append (h : After p history q) (hlater : After q later r) :
    After p (history ++ later) r := by
  induction h with
  | start => exact hlater
  | reply _ ih => exact .reply (ih hlater)

/-- A history goes on with the reply to the call that is due. -/
theorem After.snoc {op : Op} {next : Reply op → Program Op Reply α}
    (h : After p history (.call op next)) (reply : Reply op) :
    After p (history ++ [⟨op, reply⟩]) (next reply) :=
  h.append (.reply (.start _))

theorem After.eq_of_nil (h : After p [] q) : q = p := by
  generalize hnil : ([] : History Op Reply) = history at h
  cases h with
  | start => rfl
  | reply => cases hnil

/-- The last reply of a history came to the call that was due. -/
theorem After.of_snoc {op : Op} {reply : Reply op} (h : After p (history ++ [⟨op, reply⟩]) q) :
    ∃ next, After p history (.call op next) ∧ q = next reply := by
  generalize hwhole : history ++ [⟨op, reply⟩] = whole at h
  induction h generalizing history with
  | start => simp at hwhole
  | @reply op' next' reply' whole q h ih =>
      cases history with
      | nil =>
          obtain ⟨hevent, rfl⟩ := List.cons.inj hwhole
          cases hevent
          exact ⟨next', .start _, h.eq_of_nil⟩
      | cons event rest =>
          obtain ⟨rfl, hrest⟩ := List.cons.inj hwhole
          obtain ⟨next, hdue, hq⟩ := ih hrest
          exact ⟨next, .reply hdue, hq⟩

/-! ### Programs one after another -/

theorem After.bind {f : α → Program Op Reply β} (h : After p history q) :
    After (p >>= f) history (q >>= f) := by
  induction h with
  | start => exact .start _
  | reply _ ih => exact .reply ih

/-- A composed program is in its first part, or has ended it and is in the second. -/
theorem after_bind_iff {f : α → Program Op Reply β} {s : Program Op Reply β} :
    After (p >>= f) history s ↔
      (∃ q, After p history q ∧ (∀ value, q ≠ .done value) ∧ s = q >>= f) ∨
        ∃ value before rest, history = before ++ rest ∧ After p before (.done value) ∧
          After (f value) rest s := by
  refine ⟨?_, ?_⟩
  · intro h
    induction p generalizing history with
    | done value => exact Or.inr ⟨value, [], history, rfl, .start _, h⟩
    | call op next ih =>
        rw [call_bind, after_call_iff] at h
        rcases h with ⟨rfl, rfl⟩ | ⟨reply, rest, rfl, h⟩
        · exact Or.inl ⟨.call op next, .start _, by simp, rfl⟩
        · rcases ih reply h with ⟨q, hq, hne, hs⟩ | ⟨value, before, rest', rfl, hdone, hf⟩
          · exact Or.inl ⟨q, .reply hq, hne, hs⟩
          · exact Or.inr ⟨value, ⟨op, reply⟩ :: before, rest', rfl, .reply hdone, hf⟩
    | unfinished =>
        rw [unfinished_bind, after_unfinished_iff] at h
        obtain ⟨rfl, rfl⟩ := h
        exact Or.inl ⟨.unfinished, .start _, by simp, rfl⟩
  · intro hin
    rcases hin with ⟨q, hq, -, rfl⟩ | ⟨value, before, rest, rfl, hdone, hf⟩
    · exact hq.bind
    · exact (hdone.bind (f := f)).append hf

/-- A composed program that has ended has ended its parts. -/
theorem after_bind_done_iff {f : α → Program Op Reply β} {value : β} :
    After (p >>= f) history (.done value) ↔
      ∃ mid before rest, history = before ++ rest ∧ After p before (.done mid) ∧
        After (f mid) rest (.done value) := by
  rw [after_bind_iff]
  refine ⟨fun h => ?_, Or.inr⟩
  rcases h with ⟨q, -, hne, hq⟩ | h
  · cases q with
    | done mid => exact absurd rfl (hne mid)
    | call op next => cases hq
    | unfinished => cases hq
  · exact h

/-- The call that is due in a composed program is due in one of its parts. -/
theorem after_bind_call {f : α → Program Op Reply β} {op : Op}
    {next : Reply op → Program Op Reply β}
    (h : After (p >>= f) history (.call op next)) :
    (∃ next', After p history (.call op next')) ∨
      ∃ mid before rest, history = before ++ rest ∧ After p before (.done mid) ∧
        After (f mid) rest (.call op next) := by
  rcases after_bind_iff.1 h with ⟨q, hq, hne, heq⟩ | h
  · cases q with
    | done mid => exact absurd rfl (hne mid)
    | call op' next' =>
        obtain ⟨rfl, -⟩ := Program.call.inj heq
        exact Or.inl ⟨next', hq⟩
    | unfinished => cases heq
  · exact Or.inr h

/-- A history has one beginning that ends a program. -/
theorem After.done_unique {value value' : α} {before before' rest rest' : History Op Reply}
    (h : After p before (.done value)) (h' : After p before' (.done value'))
    (heq : before ++ rest = before' ++ rest') : value = value' ∧ before = before' := by
  induction p generalizing before before' with
  | done mid =>
      obtain ⟨rfl, hmid⟩ := after_done_iff.1 h
      obtain ⟨rfl, hmid'⟩ := after_done_iff.1 h'
      exact ⟨(Program.done.inj hmid).trans (Program.done.inj hmid').symm, rfl⟩
  | call op next ih =>
      rcases after_call_iff.1 h with ⟨-, hne⟩ | ⟨reply, tail, rfl, htail⟩
      · cases hne
      rcases after_call_iff.1 h' with ⟨-, hne⟩ | ⟨reply', tail', rfl, htail'⟩
      · cases hne
      obtain ⟨hevent, hrest⟩ := List.cons.inj heq
      obtain rfl := eq_of_heq (Sigma.mk.inj hevent).2
      obtain ⟨hvalue, rfl⟩ := ih reply htail htail' hrest
      exact ⟨hvalue, rfl⟩
  | unfinished =>
      cases (after_unfinished_iff.1 h).2

/-! ### The calls of a program -/

/-- Every call that the program may make satisfies `P`, and it comes to an end. -/
def Makes (P : Op → Prop) : Program Op Reply α → Prop
  | .done _ => True
  | .call op next => P op ∧ ∀ reply, (next reply).Makes P
  | .unfinished => False

variable {P Q : Op → Prop}

theorem Makes.mono (h : p.Makes P) (hPQ : ∀ op, P op → Q op) : p.Makes Q := by
  induction p with
  | done => trivial
  | call op next ih => exact ⟨hPQ op h.1, fun reply => ih reply (h.2 reply)⟩
  | unfinished => exact h

theorem Makes.bind {f : α → Program Op Reply β} (h : p.Makes P) (hf : ∀ value, (f value).Makes P) :
    (p >>= f).Makes P := by
  induction p with
  | done value => exact hf value
  | call op next ih => exact ⟨h.1, fun reply => ih reply (h.2 reply)⟩
  | unfinished => exact h

theorem Makes.after (h : p.Makes P) (hq : After p history q) :
    q.Makes P ∧ ∀ event ∈ history, P event.1 := by
  induction hq with
  | start => exact ⟨h, by simp⟩
  | reply _ ih =>
      obtain ⟨hq, hall⟩ := ih (h.2 _)
      refine ⟨hq, fun event hevent => ?_⟩
      rcases List.mem_cons.1 hevent with rfl | hrest
      · exact h.1
      · exact hall event hrest

/-- What is true of all calls of a program is true of the one that is due. -/
theorem Makes.call {op : Op} {next : Reply op → Program Op Reply α} (h : p.Makes P)
    (hq : After p history (.call op next)) : P op :=
  (h.after hq).1.1

/-- Every call that the program comes to make satisfies `P`, whether it comes to an end or not. -/
def Asks (P : Op → Prop) (p : Program Op Reply α) : Prop :=
  ∀ history q, After p history q → ∀ event ∈ history, P event.1

theorem Makes.asks (h : p.Makes P) : p.Asks P :=
  fun _ _ hq => (h.after hq).2

theorem asks_unfinished : (Program.unfinished : Program Op Reply α).Asks P := by
  intro history q h event hevent
  obtain ⟨rfl, -⟩ := after_unfinished_iff.1 h
  cases hevent

theorem Asks.bind {f : α → Program Op Reply β} (h : p.Asks P) (hf : ∀ value, (f value).Asks P) :
    (p >>= f).Asks P := by
  intro history s hs event hevent
  rcases after_bind_iff.1 hs with ⟨q, hq, -, -⟩ | ⟨value, before, rest, rfl, hdone, hrest⟩
  · exact h history q hq event hevent
  · rcases List.mem_append.1 hevent with hbefore | hafter
    · exact h before _ hdone event hbefore
    · exact hf value rest s hrest event hafter

end ClusterAccess.Program

/-! ### Requests -/

namespace ClusterAccess.Request

open Program

section

variable {Op : Type} {Reply : Op → Type} {α β : Type} {p : ExceptT Fault (Program Op Reply) α}
  {f : α → ExceptT Fault (Program Op Reply) β} {history : History Op Reply}

/-- A request that comes after another one goes on with its value, or ends with its fault. -/
theorem run_bind : (p >>= f).run =
    p.run >>= fun outcome =>
      match outcome with
      | .ok value => (f value).run
      | .error fault => .done (.error fault) := by
  rw [ExceptT.run_bind]
  congr 1
  funext outcome
  cases outcome <;> rfl

/-- It does not matter how three requests in a row are grouped. -/
theorem bind_assoc {γ : Type} {g : β → ExceptT Fault (Program Op Reply) γ} :
    (p >>= f >>= g) = p >>= fun value => f value >>= g := by
  apply ExceptT.ext
  rw [run_bind, run_bind, run_bind, Program.bind_assoc]
  refine congrArg (p.run >>= ·) (funext fun outcome => ?_)
  cases outcome with
  | ok value => exact run_bind.symm
  | error fault => rfl

/-- A composed request that has ended has ended its first part, and the second one unless the
first failed. -/
theorem after_bind_done_iff {outcome : Outcome β} :
    After (p >>= f).run history (.done outcome) ↔
      (∃ fault, outcome = .error fault ∧ After p.run history (.done (.error fault))) ∨
        ∃ mid before rest, history = before ++ rest ∧ After p.run before (.done (.ok mid)) ∧
          After (f mid).run rest (.done outcome) := by
  rw [run_bind, Program.after_bind_done_iff]
  refine ⟨fun h => ?_, fun h => ?_⟩
  · obtain ⟨mid, before, rest, rfl, hp, hf⟩ := h
    cases mid with
    | ok mid => exact Or.inr ⟨mid, before, rest, rfl, hp, hf⟩
    | error fault =>
        obtain ⟨rfl, houtcome⟩ := after_done_iff.1 hf
        rw [List.append_nil]
        exact Or.inl ⟨fault, Program.done.inj houtcome, hp⟩
  · rcases h with ⟨fault, rfl, hp⟩ | ⟨mid, before, rest, hhistory, hp, hf⟩
    · exact ⟨.error fault, history, [], (List.append_nil _).symm, hp, .start _⟩
    · exact ⟨.ok mid, before, rest, hhistory, hp, hf⟩

/-- A composed request has succeeded when both its parts have. -/
theorem after_bind_ok_iff {value : β} :
    After (p >>= f).run history (.done (.ok value)) ↔
      ∃ mid before rest, history = before ++ rest ∧ After p.run before (.done (.ok mid)) ∧
        After (f mid).run rest (.done (.ok value)) := by
  rw [after_bind_done_iff]
  refine ⟨fun h => ?_, Or.inr⟩
  rcases h with ⟨fault, hne, -⟩ | h
  · cases hne
  · exact h

/-- A composed request has failed when one of its parts has. -/
theorem after_bind_error_iff {fault : Fault} :
    After (p >>= f).run history (.done (.error fault)) ↔
      After p.run history (.done (.error fault)) ∨
        ∃ mid before rest, history = before ++ rest ∧ After p.run before (.done (.ok mid)) ∧
          After (f mid).run rest (.done (.error fault)) := by
  rw [after_bind_done_iff]
  refine or_congr_left ⟨fun h => ?_, fun h => ⟨fault, rfl, h⟩⟩
  obtain ⟨fault', heq, hp⟩ := h
  rwa [Except.error.inj heq]

theorem makes_bind {P : Op → Prop} (h : p.run.Makes P) (hf : ∀ value, (f value).run.Makes P) :
    (p >>= f).run.Makes P := by
  rw [run_bind]
  refine h.bind fun outcome => ?_
  cases outcome with
  | ok value => exact hf value
  | error fault => trivial

end

variable {α β : Type} {p : Request α} {f : α → Request β} {history : History Call Call.Reply}

/-- The call that is due in a composed request is due in one of its parts. -/
theorem after_bind_call {call : Call} {next : call.Reply → Program Call Call.Reply (Outcome β)}
    (h : After (p >>= f).run history (.call call next)) :
    (∃ next', After p.run history (.call call next')) ∨
      ∃ mid before rest, history = before ++ rest ∧ After p.run before (.done (.ok mid)) ∧
        After (f mid).run rest (.call call next) := by
  rw [run_bind] at h
  rcases Program.after_bind_call h with h | ⟨outcome, before, rest, hhistory, hp, hf⟩
  · exact Or.inl h
  · cases outcome with
    | ok mid => exact Or.inr ⟨mid, before, rest, hhistory, hp, hf⟩
    | error fault => cases (after_done_iff.1 hf).2

/-- What is due in the first part is due in the whole. -/
theorem after_bind_of_call {call : Call}
    {next : call.Reply → Program Call Call.Reply (Outcome α)}
    (h : After p.run history (.call call next)) (f : α → Request β) :
    ∃ next', After (p >>= f).run history (.call call next') := by
  rw [run_bind]
  exact ⟨_, h.bind⟩

/-- A request that makes one call has the reply as its outcome. -/
theorem after_send_done_iff {call : Call} {outcome : call.Reply} :
    After (send call).run history (.done outcome) ↔ history = [⟨call, outcome⟩] := by
  refine ⟨fun h => ?_, ?_⟩
  · rcases after_call_iff.1 h with ⟨-, hne⟩ | ⟨reply, rest, rfl, hdone⟩
    · cases hne
    · obtain ⟨rfl, houtcome⟩ := after_done_iff.1 hdone
      cases houtcome
      rfl
  · intro hin
    obtain rfl := hin
    exact .reply (.start _)

theorem after_send_call {call due : Call}
    {next : due.Reply → Program Call Call.Reply (Outcome call.Answer)}
    (h : After (send call).run history (.call due next)) : due = call ∧ history = [] := by
  rcases after_call_iff.1 h with ⟨hhistory, heq⟩ | ⟨reply, rest, rfl, hdone⟩
  · exact ⟨(Program.call.inj heq).1, hhistory⟩
  · cases (after_done_iff.1 hdone).2

/-- An attempt has the outcome of what was attempted as its value. -/
theorem after_attempt_done_iff {outcome : Outcome (Outcome α)} :
    After (attempt p).run history (.done outcome) ↔
      ∃ attempted, outcome = .ok attempted ∧ After p.run history (.done attempted) := by
  have hrun : (attempt p).run = p.run >>= fun attempted => .done (.ok attempted) := rfl
  rw [hrun, Program.after_bind_done_iff]
  refine ⟨fun h => ?_, fun h => ?_⟩
  · obtain ⟨attempted, before, rest, rfl, hp, hend⟩ := h
    obtain ⟨rfl, houtcome⟩ := after_done_iff.1 hend
    cases houtcome
    rw [List.append_nil]
    exact ⟨attempted, rfl, hp⟩
  · obtain ⟨attempted, rfl, hp⟩ := h
    exact ⟨attempted, history, [], (List.append_nil _).symm, hp, .start _⟩

/-- No call follows a fault that is pardoned or passed on. -/
theorem makes_pardon {P : Call → Prop} {pardoned : Bool} {value : α} {fault : Fault} :
    (if pardoned then pure value else throw fault : Request α).run.Makes P := by
  cases pardoned <;> trivial

theorem asks_bind {P : Call → Prop} (h : p.run.Asks P) (hf : ∀ value, (f value).run.Asks P) :
    (p >>= f).run.Asks P := by
  rw [run_bind]
  refine h.bind fun outcome => ?_
  cases outcome with
  | ok value => exact hf value
  | error fault => exact Makes.asks trivial

theorem asks_gather {P : Call → Prop} {g : α → Request (List β)}
    (h : ∀ a, (g a).run.Asks P) (items : List α) : (gather g items).run.Asks P := by
  induction items with
  | nil => exact Makes.asks trivial
  | cons a rest ih =>
      unfold gather
      exact asks_bind (h a) fun _ => asks_bind ih fun _ => Makes.asks trivial

/-- A listing asks for its pages, and nothing else. -/
theorem asks_collectPages {P : Call → Prop} {fetch : Option String → Request (Page α)}
    (h : ∀ token, (fetch token).run.Asks P) (pages : Nat) (token : Option String) :
    (collectPages fetch pages token).run.Asks P := by
  induction pages generalizing token with
  | zero => exact asks_unfinished
  | succ pages ih =>
      unfold collectPages
      refine asks_bind (h token) fun page => ?_
      cases page.next with
      | none => exact Makes.asks trivial
      | some next => exact asks_bind (ih (some next)) fun _ => Makes.asks trivial

theorem after_pure_iff {value : α} {q : Program Call Call.Reply (Outcome α)} :
    After (pure value : Request α).run history q ↔ history = [] ∧ q = .done (.ok value) :=
  after_done_iff

/-- A request that ends when its first part does has nothing due but what that part has. -/
theorem after_bind_pure_call {g : α → β} {call : Call}
    {next : call.Reply → Program Call Call.Reply (Outcome β)}
    (h : After (p >>= fun value => pure (g value)).run history (.call call next)) :
    ∃ next', After p.run history (.call call next') := by
  rcases after_bind_call h with hfirst | ⟨_, _, _, -, -, hend⟩
  · exact hfirst
  · cases (after_pure_iff.1 hend).2

theorem after_ofOutcome_iff {outcome : Outcome α} {q : Program Call Call.Reply (Outcome α)} :
    After (ofOutcome outcome : Request α).run history q ↔ history = [] ∧ q = .done outcome :=
  after_done_iff

/-- What comes after a check succeeds only if the check passes. -/
theorem after_ofOutcome_bind_ok {outcome : Outcome α} {value : β}
    (h : After (ofOutcome outcome >>= f).run history (.done (.ok value))) :
    ∃ mid, outcome = .ok mid ∧ After (f mid).run history (.done (.ok value)) := by
  obtain ⟨mid, before, rest, rfl, hcheck, hrest⟩ := after_bind_ok_iff.1 h
  obtain ⟨rfl, hmid⟩ := after_ofOutcome_iff.1 hcheck
  exact ⟨mid, (Program.done.inj hmid).symm, hrest⟩

/-- Nothing is due after a check that fails. -/
theorem after_ofOutcome_bind_call {outcome : Outcome α} {call : Call}
    {next : call.Reply → Program Call Call.Reply (Outcome β)}
    (h : After (ofOutcome outcome >>= f).run history (.call call next)) :
    ∃ value, outcome = .ok value ∧ After (f value).run history (.call call next) := by
  rcases after_bind_call h with ⟨_, hcheck⟩ | ⟨value, before, rest, rfl, hcheck, hrest⟩
  · cases (after_ofOutcome_iff.1 hcheck).2
  · obtain ⟨rfl, hvalue⟩ := after_ofOutcome_iff.1 hcheck
    exact ⟨value, (Program.done.inj hvalue).symm, hrest⟩

end ClusterAccess.Request
