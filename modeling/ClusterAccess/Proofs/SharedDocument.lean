/-
The mapping document, shared by many requests and by strangers.

Any number of requests for usernames are under way against one document, and strangers write to it
as they like.  A request that finds no username reads the whole document, adds a row for its
principal to a copy, and writes the copy back.  What protects the rows of others is the version:
every write gives the document one that it never had, and a write of a copy is refused unless
the document has the version of the copy.  So what is written over is what was read, and since
the copy only has a row more, nothing is lost (`Run.told`).

Three things follow for every run, whatever comes in between, and whichever calls fail or have
their replies lost.  They are `rows_kept`.

  * Each write of a request adds one row for its principal, and leaves all else as it is.
  * If two requests for a principal have both made a row for it, then a stranger removed the
    first one before the second was written.
  * A username that was given is what the document said right after the last call of the request.
-/
import Mathlib
import ClusterAccess.Proofs.Crowd
import ClusterAccess.Proofs.SelfMappings

namespace ClusterAccess

open Program (After History)

/-! ### The server -/

namespace AwsAuth

variable {document changed sent : AwsAuth} {principal key : String} {number : Nat}

/-- The document merged with one that is sent: the entries that are sent are set. -/
def patched (document sent : AwsAuth) : AwsAuth :=
  { document with
    data := sent.data.foldr (fun entry data => setText entry.1 entry.2 data) document.data }

/-- The document as the write of a number stores it. -/
def stamped (document : AwsAuth) (number : Nat) : AwsAuth :=
  { document with resourceVersion := some (Nat.repr number) }

/-- Entries that are not sent stay. -/
theorem lookup_patched :
    (document.patched sent).data.lookup key =
      (sent.data.lookup key).or (document.data.lookup key) := by
  show (sent.data.foldr _ document.data).lookup key = _
  induction sent.data with
  | nil => rfl
  | cons entry rest ih =>
      obtain ⟨first, text⟩ := entry
      rw [List.foldr_cons, lookup_setText, ih]
      by_cases hkey : key = first
      · simp [hkey]
      · have hne : (key == first) = false := by simpa using hkey
        simp [List.lookup, hkey, hne]

/-- A document that was written over with a copy that has one row more has one row more. -/
theorem addsRow_patched (h : document.AddsRow changed principal) :
    document.AddsRow ((document.patched changed).stamped number) principal := by
  have hdata : ∀ key, ((document.patched changed).stamped number).data.lookup key =
      changed.data.lookup key := by
    intro key
    show (document.patched changed).data.lookup key = _
    rw [lookup_patched]
    obtain ⟨part, values, -, -, hchanged, hothers⟩ := h.added
    by_cases hkey : key = part.key
    · -- The list that was rendered is there, since it is not what an absent one would be.
      cases hentry : changed.data.lookup key with
      | some text => rfl
      | none =>
          rw [hkey] at hentry
          simp [AwsAuth.values, hentry] at hchanged
    · rw [hothers key hkey, Option.or_self]
  exact h.congr h.ns.symm h.name.symm hdata

end AwsAuth

/-- The mapping document that an API server holds, and the number of its next write. -/
structure DocumentServer where
  document : Option AwsAuth
  nextWrite : Nat
  /-- The document does not have the version of a write that is still to come. -/
  unused : ∀ d, document = some d → ∀ number ≥ nextWrite, d.resourceVersion ≠ some (Nat.repr number)

namespace DocumentServer

variable {server after : DocumentServer} {document : AwsAuth} {principal : String}

/-- Stores a document with the version of this write, or deletes what was there. -/
def put (server : DocumentServer) (document : Option AwsAuth) : DocumentServer where
  document := document.map fun d => d.stamped server.nextWrite
  nextWrite := server.nextWrite + 1
  unused d hd number hle := by
    obtain ⟨d', -, rfl⟩ := Option.map_eq_some_iff.1 hd
    show some (Nat.repr server.nextWrite) ≠ some (Nat.repr number)
    intro heq
    have hnumber := Nat.repr_injective (Option.some_inj.1 heq)
    omega

/-- The username of a principal, as the document says. -/
def username? (server : DocumentServer) (principal : String) : Option String :=
  server.document.bind fun d => d.findUsername? principal

/-- What can become of the server when a request makes a call. -/
inductive Serves (server : DocumentServer) : (call : Call) → call.Reply → DocumentServer → Prop
  | read : Serves server .getAwsAuth (.ok server.document) server
  /-- A call is refused, or fails. -/
  | failed (call : Call) (fault : Fault) : Serves server call (.error fault) server
  /-- A document is written over by a copy of its version.  The reply may get lost. -/
  | written {document sent : AwsAuth} (reply : Outcome Unit)
      (hdocument : server.document = some document)
      (hversion : sent.resourceVersion = document.resourceVersion) :
      Serves server (.updateAwsAuth sent) reply (server.put (some (document.patched sent)))

/-- A document was read from the server at some time.  What is there now is either that document,
or it has a version that is another. -/
structure Known (server : DocumentServer) (document : AwsAuth) : Prop where
  unused : ∀ number ≥ server.nextWrite, document.resourceVersion ≠ some (Nat.repr number)
  eq_of_version : ∀ d, server.document = some d →
    document.resourceVersion = d.resourceVersion → d = document

theorem known_of_document (h : server.document = some document) : server.Known document where
  unused := server.unused document h
  eq_of_version _ hd _ := Option.some_inj.1 (hd.symm.trans h)

theorem Known.put (h : server.Known document) (document? : Option AwsAuth) :
    (server.put document?).Known document where
  unused number hle := h.unused number (Nat.le_of_succ_le hle)
  eq_of_version d hd hversion := by
    obtain ⟨d', -, rfl⟩ := Option.map_eq_some_iff.1 hd
    -- No version that was read is the one of this write.
    exact absurd hversion (h.unused server.nextWrite (Nat.le_refl _))

theorem Serves.known {call : Call} {reply : call.Reply} (hs : server.Serves call reply after)
    (h : server.Known document) : after.Known document := by
  cases hs with
  | read => exact h
  | failed => exact h
  | written => exact h.put _

end DocumentServer

/-! ### Runs -/

namespace SharedDocument

/-- Something that happens to the document. -/
inductive Happening where
  /-- One of the requests makes a call. -/
  | called (i : Nat) (call : Call) (reply : call.Reply)
  /-- A stranger writes. -/
  | foreign

/-- Something that has happened, with the server before and after it. -/
structure Event where
  happening : Happening
  before : DocumentServer
  after : DocumentServer

namespace Event

/-- The call of a request, if the event is one of its calls. -/
def callOf (i : Nat) (e : Event) : Option ((call : Call) × call.Reply) :=
  match e.happening with
  | .called j call reply => if j = i then some ⟨call, reply⟩ else none
  | .foreign => none

/-- The document has one row more after the event, for a principal that had none. -/
def Enrolls (e : Event) (principal : String) : Prop :=
  ∃ document changed, e.before.document = some document ∧ e.after.document = some changed ∧
    document.AddsRow changed principal

/-- The list that a request renders to write it back is read back by the YAML library. -/
def ReadsBack (principals : List String) (e : Event) : Prop :=
  ∀ i sent reply principal document, e.happening = .called i (.updateAwsAuth sent) reply →
    principals[i]? = some principal → e.before.document = some document →
      document.ReadsBack principal

/-- A stranger takes the username of a principal out of the document. -/
def Removes (e : Event) (principal : String) : Prop :=
  e.happening = .foreign ∧ e.before.username? principal ≠ none ∧
    e.after.username? principal = none

end Event

/-- A request for a username that is under way. -/
abbrev Caller := Runner String Resolved

/-- Any number of events, from when the requests begin. -/
inductive Run (principals : List String) (start : DocumentServer) :
    List Event → DocumentServer → List Caller → Prop
  | nil : Run principals start [] start (principals.map (.start AwsAuth.resolveOrCreate))
  | called {events : List Event} {server after : DocumentServer} {callers : List Caller}
      {r : Caller} {call : Call} {reply : call.Reply}
      {next : call.Reply → Program Call Call.Reply (Outcome Resolved)} (i : Nat)
      (h : Run principals start events server callers) (hcaller : callers[i]? = some r)
      (hdue : r.program = .call call next) (hs : server.Serves call reply after) :
      Run principals start (events ++ [⟨.called i call reply, server, after⟩]) after
        (callers.set i (r.proceed call reply (next reply)))
  | foreign {events : List Event} {server : DocumentServer} {callers : List Caller}
      (h : Run principals start events server callers) (document : Option AwsAuth) :
      Run principals start (events ++ [⟨.foreign, server, server.put document⟩])
        (server.put document) callers

/-- A request has succeeded. -/
def Returned (callers : List Caller) (i : Nat) (resolved : Resolved) : Prop :=
  ∃ r, callers[i]? = some r ∧ r.program = .done (.ok resolved)

variable {principals : List String} {start server : DocumentServer} {events : List Event}
  {callers : List Caller} {e m m' : Event} {r : Caller} {i j : Nat} {principal : String}
  {resolved : Resolved}

/-! ### Where the requests are -/

/-- A request is where its calls have brought it, and knows the document that it has read. -/
structure Informed (principals : List String) (events : List Event) (server : DocumentServer)
    (i : Nat) (r : Caller) : Prop where
  principal : principals[i]? = some r.errand
  run : After (AwsAuth.resolveOrCreate r.errand).run r.history r.program
  calls : events.filterMap (Event.callOf i) = r.history
  known : ∀ document, ⟨.getAwsAuth, .ok (some document)⟩ ∈ r.history → server.Known document

theorem Informed.snoc (h : Informed principals events server i r) (hcall : e.callOf i = none)
    {after : DocumentServer} (hknown : ∀ document, server.Known document → after.Known document) :
    Informed principals (events ++ [e]) after i r where
  principal := h.principal
  run := h.run
  calls := by simp [h.calls, hcall]
  known document hread := hknown document (h.known document hread)

theorem Informed.called {call : Call} {reply : call.Reply} {after : DocumentServer}
    {next : call.Reply → Program Call Call.Reply (Outcome Resolved)}
    (h : Informed principals events server i r) (hdue : r.program = .call call next)
    (hs : server.Serves call reply after) :
    Informed principals (events ++ [⟨.called i call reply, server, after⟩]) after i
      (r.proceed call reply (next reply)) where
  principal := h.principal
  run := by
    have hrun := h.run
    rw [hdue] at hrun
    exact hrun.snoc reply
  calls := by simp [Event.callOf, h.calls, Runner.proceed]
  known document hread := by
    rcases List.mem_append.1 hread with hold | hnew
    · exact hs.known (h.known document hold)
    · have heq := List.mem_singleton.1 hnew
      cases hs with
      | read =>
          have hreply := eq_of_heq (Sigma.mk.inj heq).2
          exact DocumentServer.known_of_document (Except.ok.inj hreply).symm
      | failed call fault =>
          obtain rfl : Call.getAwsAuth = call := (Sigma.mk.inj heq).1
          cases heq
      | written reply hdocument hversion => cases heq

theorem Run.informed (hrun : Run principals start events server callers) :
    ∀ i r, callers[i]? = some r → Informed principals events server i r := by
  induction hrun with
  | nil =>
      intro i r hr
      obtain ⟨principal, hprincipal, rfl⟩ := by simpa using hr
      exact ⟨hprincipal, .start _, rfl, fun document hread => by cases hread⟩
  | @called events server after callers r call reply next i hrun hcaller hdue hs ih =>
      intro j r' hr'
      rw [List.getElem?_set] at hr'
      by_cases hij : i = j
      · subst hij
        obtain ⟨-, rfl⟩ := by simpa using hr'
        exact (ih i r hcaller).called hdue hs
      · rw [if_neg hij] at hr'
        exact (ih j r' hr').snoc (by simp [Event.callOf, hij]) fun document => hs.known
  | @foreign events server callers hrun document ih =>
      intro i r hr
      exact (ih i r hr).snoc rfl fun d hknown => hknown.put document

/-! ### What can happen -/

/-- The events of a run: only strangers change the document in any way but by one row more. -/
inductive Told (principals : List String) (e : Event) : Happening → Prop
  | foreign : Told principals e .foreign
  | read (i : Nat) (hsame : e.after = e.before) :
      Told principals e (.called i .getAwsAuth (.ok e.before.document))
  | failed (i : Nat) (call : Call) (fault : Fault) (hsame : e.after = e.before) :
      Told principals e (.called i call (.error fault))
  | enrolled {i : Nat} {principal : String} {sent : AwsAuth} (reply : Outcome Unit)
      (hprincipal : principals[i]? = some principal) (h : e.Enrolls principal) :
      Told principals e (.called i (.updateAwsAuth sent) reply)

/-- The document that is written over is the one that was read, and the copy has one row more. -/
theorem Informed.told {call : Call} {reply : call.Reply} {after : DocumentServer}
    {next : call.Reply → Program Call Call.Reply (Outcome Resolved)}
    (h : Informed principals events server i r) (hdue : r.program = .call call next)
    (hs : server.Serves call reply after)
    (hback : Event.ReadsBack principals ⟨.called i call reply, server, after⟩) :
    Told principals ⟨.called i call reply, server, after⟩ (.called i call reply) := by
  cases hs with
  | read => exact .read i rfl
  | failed call fault => exact .failed i call fault rfl
  | @written document sent reply hdocument hversion =>
      have hrun := h.run
      rw [hdue] at hrun
      rcases AwsAuth.resolveOrCreate_call hrun with
        ⟨hcall, -⟩ | ⟨read, changed, hcall, hhistory, hfind, happend⟩
      · cases hcall
      obtain rfl := Call.updateAwsAuth.inj hcall
      have hread : ⟨.getAwsAuth, .ok (some read)⟩ ∈ r.history := by
        rw [hhistory]
        exact List.mem_singleton_self _
      obtain rfl : document = read := by
        refine (h.known read hread).eq_of_version document hdocument ?_
        rw [← hversion, AwsAuth.resourceVersion_of_appendSelf happend]
      have hadds := AwsAuth.addsRow_of_appendSelf happend hfind
        (hback i _ reply r.errand document rfl h.principal hdocument)
      exact .enrolled reply h.principal
        ⟨document, _, hdocument, rfl, AwsAuth.addsRow_patched hadds⟩

theorem Run.told (hrun : Run principals start events server callers)
    (hback : ∀ e ∈ events, e.ReadsBack principals) : ∀ e ∈ events, Told principals e e.happening := by
  induction hrun with
  | nil =>
      intro e he
      cases he
  | @called events server after callers r call reply next i hrun hcaller hdue hs ih =>
      intro e he
      rcases List.mem_append.1 he with hold | hnew
      · exact ih (fun e he => hback e (List.mem_append_left _ he)) e hold
      · obtain rfl := List.mem_singleton.1 hnew
        exact (hrun.informed i r hcaller).told hdue hs (hback _ he)
  | @foreign events server callers hrun document ih =>
      intro e he
      rcases List.mem_append.1 he with hold | hnew
      · exact ih (fun e he => hback e (List.mem_append_left _ he)) e hold
      · obtain rfl := List.mem_singleton.1 hnew
        exact .foreign

theorem Event.Enrolls.before_eq_none (h : e.Enrolls principal) :
    e.before.username? principal = none := by
  obtain ⟨document, changed, hbefore, -, hadds⟩ := h
  rw [DocumentServer.username?, hbefore]
  exact hadds.unnamed

theorem Event.Enrolls.after_eq (h : e.Enrolls principal) :
    e.after.username? principal = some principal := by
  obtain ⟨document, changed, -, hafter, hadds⟩ := h
  rw [DocumentServer.username?, hafter]
  exact hadds.findUsername?_self

theorem Event.Enrolls.keeps (h : e.Enrolls principal) {someone username : String}
    (hfind : e.before.username? someone = some username) :
    e.after.username? someone = some username := by
  obtain ⟨document, changed, hbefore, hafter, hadds⟩ := h
  rw [DocumentServer.username?, hbefore] at hfind
  rw [DocumentServer.username?, hafter]
  exact hadds.keeps hfind

/-- Nobody but a stranger takes a username out of the document. -/
theorem Told.removes (h : Told principals e e.happening)
    (hbefore : e.before.username? principal ≠ none) (hafter : e.after.username? principal = none) :
    e.Removes principal := by
  obtain ⟨username, hnamed⟩ := Option.ne_none_iff_exists'.1 hbefore
  generalize hhappening : e.happening = happening at h
  cases h with
  | foreign => exact ⟨hhappening, hbefore, hafter⟩
  | read i hsame =>
      rw [hsame, hnamed] at hafter
      cases hafter
  | failed i call fault hsame =>
      rw [hsame, hnamed] at hafter
      cases hafter
  | enrolled reply hprincipal henrolls =>
      rw [henrolls.keeps hnamed] at hafter
      cases hafter

/-! ### Between two writes -/

/-- Nothing happens to the document between one event and the next. -/
def Linked (e next : Event) : Prop :=
  next.before = e.after

theorem Run.linked (hrun : Run principals start events server callers) :
    events.IsChain Linked ∧ ∀ e ∈ events.getLast?, e.after = server := by
  have hsnoc : ∀ {events : List Event} {server : DocumentServer} (e : Event),
      (events.IsChain Linked ∧ ∀ e ∈ events.getLast?, e.after = server) → e.before = server →
      (events ++ [e]).IsChain Linked ∧ ∀ last ∈ (events ++ [e]).getLast?, last.after = e.after := by
    intro events server e h hbefore
    refine ⟨List.isChain_append.2 ⟨h.1, .singleton e, ?_⟩, by simp⟩
    intro last hlast next hnext
    obtain rfl : e = next := by simpa using hnext
    exact hbefore.trans (h.2 last hlast).symm
  induction hrun with
  | nil => exact ⟨.nil, by simp⟩
  | called i hrun hcaller hdue hs ih => exact hsnoc _ ih rfl
  | foreign hrun document ih => exact hsnoc _ ih rfl

/-- A username that the document had and has no more was removed by a stranger. -/
theorem exists_removes {between : List Event}
    (htold : ∀ e ∈ between, Told principals e e.happening)
    (hlinked : (m :: (between ++ [m'])).IsChain Linked)
    (hnamed : m.after.username? principal ≠ none) (hnone : m'.before.username? principal = none) :
    ∃ e ∈ between, e.Removes principal := by
  induction between generalizing m with
  | nil =>
      obtain ⟨hlink, -⟩ := List.isChain_cons_cons.1 hlinked
      rw [hlink] at hnone
      exact absurd hnone hnamed
  | cons e rest ih =>
      obtain ⟨hlink, hrest⟩ := List.isChain_cons_cons.1 hlinked
      by_cases hafter : e.after.username? principal = none
      · refine ⟨e, List.mem_cons_self, (htold e List.mem_cons_self).removes ?_ hafter⟩
        rw [hlink]
        exact hnamed
      · obtain ⟨e', he', hremoves⟩ :=
          ih (fun e he => htold e (List.mem_cons_of_mem _ he)) hrest hafter
        exact ⟨e', List.mem_cons_of_mem _ he', hremoves⟩

/-! ### What is kept -/

namespace Event

/-- The event is a call of the request. -/
def IsOf (i : Nat) (e : Event) : Prop :=
  ∃ call reply, e.happening = .called i call reply

/-- The event is a write of the request which succeeds. -/
def Writes (i : Nat) (e : Event) : Prop :=
  ∃ sent, e.happening = .called i (.updateAwsAuth sent) (.ok ())

theorem callOf_eq_some_iff {call : Call} {reply : call.Reply} :
    e.callOf i = some ⟨call, reply⟩ ↔ e.happening = .called i call reply := by
  obtain ⟨happening, before, after⟩ := e
  cases happening with
  | foreign => simp [callOf]
  | called j call' reply' =>
      by_cases hji : j = i
      · subst hji
        simp [callOf]
      · simp [callOf, hji]

theorem callOf_eq_none_iff : e.callOf i = none ↔ ¬e.IsOf i := by
  refine ⟨?_, ?_⟩
  · intro hnone hin
    obtain ⟨call, reply, hcalled⟩ := hin
    rw [callOf_eq_some_iff.2 hcalled] at hnone
    cases hnone
  · intro hnot
    cases hcall : e.callOf i with
    | none => rfl
    | some event => exact absurd ⟨_, _, callOf_eq_some_iff.1 hcall⟩ hnot

theorem Writes.ne (h : m.Writes i) (h' : m'.Writes j) (hij : i ≠ j) : m ≠ m' := by
  rintro rfl
  obtain ⟨sent, hi⟩ := h
  obtain ⟨sent', hj⟩ := h'
  rw [hi] at hj
  cases hj
  exact hij rfl

end Event

/-- The event is the last call of the request. -/
def LastOf (i : Nat) (events : List Event) (e : Event) : Prop :=
  ∃ earlier later : List Event, events = earlier ++ e :: later ∧ e.IsOf i ∧
    ∀ e' ∈ later, ¬e'.IsOf i

/-- Two events come one after the other, with these in between. -/
def Spans (events : List Event) (first : Event) (between : List Event) (second : Event) : Prop :=
  ∃ earlier later : List Event, events = earlier ++ first :: (between ++ second :: later)

theorem LastOf.mem (h : LastOf i events e) : e ∈ events := by
  obtain ⟨earlier, later, rfl, -⟩ := h
  simp

/-- What stands last in a history was the last call. -/
theorem exists_lastOf (history : History Call Call.Reply) {call : Call} {reply : call.Reply}
    (h : events.filterMap (Event.callOf i) = history ++ [⟨call, reply⟩]) :
    ∃ e, LastOf i events e ∧ e.happening = .called i call reply := by
  obtain ⟨front, back, rfl, -, hback⟩ := List.filterMap_eq_append_iff.1 h
  obtain ⟨skipped, e, later, rfl, -, hcall, hlater⟩ := List.filterMap_eq_cons_iff.1 hback
  have hcalled := Event.callOf_eq_some_iff.1 hcall
  refine ⟨e, ⟨front ++ skipped, later, by simp, ⟨_, _, hcalled⟩, ?_⟩, hcalled⟩
  intro e' he'
  exact Event.callOf_eq_none_iff.1 (List.filterMap_eq_nil_iff.1 hlater e' he')

theorem Told.of_read {found : Option AwsAuth}
    (h : Told principals e (.called i .getAwsAuth (.ok found))) :
    e.after = e.before ∧ e.before.document = found := by
  cases h with
  | read _ hsame => exact ⟨hsame, rfl⟩

theorem Told.of_written {sent : AwsAuth}
    (h : Told principals e (.called i (.updateAwsAuth sent) (.ok ()))) :
    ∃ principal, principals[i]? = some principal ∧ e.Enrolls principal := by
  cases h with
  | enrolled reply hprincipal henrolls => exact ⟨_, hprincipal, henrolls⟩

/-- A call of a request changes nothing, or it adds one row. -/
theorem Told.enrolls {call : Call} {reply : call.Reply}
    (h : Told principals e (.called i call reply))
    (hcalled : e.happening = .called i call reply) :
    e.after = e.before ∧ ¬e.Writes i ∨
      ∃ principal, principals[i]? = some principal ∧ e.Enrolls principal := by
  have hnot : (∀ sent, Happening.called i call reply ≠ .called i (.updateAwsAuth sent) (.ok ())) →
      ¬e.Writes i := by
    intro hne hwrites
    obtain ⟨sent, hsent⟩ := hwrites
    exact hne sent (hcalled.symm.trans hsent)
  cases h with
  | read _ hsame => exact Or.inl ⟨hsame, hnot (by simp)⟩
  | failed _ _ fault hsame =>
      refine Or.inl ⟨hsame, hnot ?_⟩
      intro sent heq
      cases heq
  | enrolled reply hprincipal henrolls => exact Or.inr ⟨_, hprincipal, henrolls⟩

/-- A request that made a row has written it. -/
theorem Informed.writes (h : Informed principals events server i r)
    (hdone : r.program = .done (.ok resolved)) (hcreated : resolved.created = true) :
    ∃ m ∈ events, m.Writes i := by
  have hrun := h.run
  rw [hdone] at hrun
  obtain ⟨-, hcases⟩ := AwsAuth.resolveOrCreate_ok hrun
  rcases hcases with ⟨document, -, -, hnot⟩ | ⟨document, changed, hhistory, -⟩
  · rw [hcreated] at hnot
    cases hnot
  · obtain ⟨m, hlast, hcalled⟩ :=
      exists_lastOf [⟨.getAwsAuth, .ok (some document)⟩] (h.calls.trans hhistory)
    exact ⟨m, hlast.mem, changed, hcalled⟩

/-- Of two events, one comes first. -/
theorem exists_spans (hm : m ∈ events) (hm' : m' ∈ events) (hne : m ≠ m') :
    ∃ between, Spans events m between m' ∨ Spans events m' between m := by
  obtain ⟨earlier, later, rfl⟩ := List.append_of_mem hm
  rcases List.mem_append.1 hm' with hearlier | hlater
  · obtain ⟨first, between, rfl⟩ := List.append_of_mem hearlier
    exact ⟨between, Or.inr ⟨first, later, by simp⟩⟩
  · rcases List.mem_cons.1 hlater with heq | hlater
    · exact absurd heq.symm hne
    · obtain ⟨between, last, rfl⟩ := List.append_of_mem hlater
      exact ⟨between, Or.inl ⟨earlier, last, rfl⟩⟩

/-- Between two rows for one principal a stranger removes the first. -/
theorem Spans.removes {between : List Event} (hspans : Spans events m between m')
    (htold : ∀ e ∈ events, Told principals e e.happening) (hlinked : events.IsChain Linked)
    (hm : m.Enrolls principal) (hm' : m'.Enrolls principal) :
    ∃ e ∈ between, e.Removes principal := by
  obtain ⟨earlier, later, rfl⟩ := hspans
  have hrest : (m :: (between ++ m' :: later)).IsChain Linked :=
    (List.isChain_append.1 hlinked).2.1
  have hbetween : ((m :: (between ++ [m'])) ++ later).IsChain Linked := by simpa using hrest
  refine exists_removes (fun e he => htold e (by simp [he])) (List.isChain_append.1 hbetween).1 ?_
    hm'.before_eq_none
  rw [hm.after_eq]
  simp

/-- What a request returns stands in the document right after its last call. -/
theorem Informed.returned (h : Informed principals events server i r)
    (hdone : r.program = .done (.ok resolved))
    (htold : ∀ e ∈ events, Told principals e e.happening) :
    ∃ e, LastOf i events e ∧ e.after.username? r.errand = some resolved.username := by
  have hrun := h.run
  rw [hdone] at hrun
  obtain ⟨-, hcases⟩ := AwsAuth.resolveOrCreate_ok hrun
  rcases hcases with ⟨document, hhistory, hfind, -⟩ | ⟨document, changed, hhistory, -, -, rfl⟩
  · obtain ⟨e, hlast, hcalled⟩ := exists_lastOf [] (h.calls.trans hhistory)
    refine ⟨e, hlast, ?_⟩
    obtain ⟨hsame, hdocument⟩ := (hcalled ▸ htold e hlast.mem).of_read
    rw [hsame, DocumentServer.username?, hdocument]
    exact hfind
  · obtain ⟨e, hlast, hcalled⟩ :=
      exists_lastOf [⟨.getAwsAuth, .ok (some document)⟩] (h.calls.trans hhistory)
    refine ⟨e, hlast, ?_⟩
    obtain ⟨principal, hprincipal, henrolls⟩ := (hcalled ▸ htold e hlast.mem).of_written
    obtain rfl := Option.some_inj.1 (hprincipal.symm.trans h.principal)
    exact henrolls.after_eq

/-- **No row is lost or doubled by requests that run at once.**  Every call of a request changes
nothing or adds one row for its principal, which had none, and leaves every other row and entry
that the document has at that moment.  If two requests have both made a row for one principal,
a stranger has removed the first one in between.  And every username that was given is the one
that the document had for the principal right after the last call of the request. -/
theorem rows_kept (hrun : Run principals start events server callers)
    (hback : ∀ e ∈ events, e.ReadsBack principals) :
    (∀ e ∈ events, ∀ i, e.IsOf i → e.after = e.before ∧ ¬e.Writes i ∨
      ∃ principal, principals[i]? = some principal ∧ e.Enrolls principal) ∧
    (∀ i j principal username username', i ≠ j → principals[i]? = some principal →
      principals[j]? = some principal → Returned callers i ⟨username, true⟩ →
      Returned callers j ⟨username', true⟩ →
      ∃ first between second, Spans events first between second ∧
        (first.Writes i ∧ second.Writes j ∨ first.Writes j ∧ second.Writes i) ∧
        ∃ e ∈ between, e.Removes principal) ∧
    ∀ i principal resolved, principals[i]? = some principal → Returned callers i resolved →
      ∃ e, LastOf i events e ∧ e.after.username? principal = some resolved.username := by
  have htold := hrun.told hback
  have henrolls : ∀ i principal m, principals[i]? = some principal → m ∈ events → m.Writes i →
      m.Enrolls principal := by
    intro i principal m hprincipal hm hwrites
    obtain ⟨sent, hsent⟩ := hwrites
    obtain ⟨other, hother, henrolls⟩ := (hsent ▸ htold m hm).of_written
    rwa [Option.some_inj.1 (hprincipal.symm.trans hother)]
  refine ⟨?_, ?_, ?_⟩
  · intro e he i hof
    obtain ⟨call, reply, hcalled⟩ := hof
    exact (hcalled ▸ htold e he).enrolls hcalled
  · intro i j principal username username' hij hi hj hreturned hreturned'
    obtain ⟨r, hr, hdone⟩ := hreturned
    obtain ⟨r', hr', hdone'⟩ := hreturned'
    obtain ⟨m, hm, hwrites⟩ := (hrun.informed i r hr).writes hdone rfl
    obtain ⟨m', hm', hwrites'⟩ := (hrun.informed j r' hr').writes hdone' rfl
    have hfirst := henrolls i principal m hi hm hwrites
    have hsecond := henrolls j principal m' hj hm' hwrites'
    obtain ⟨between, hspans | hspans⟩ := exists_spans hm hm' (hwrites.ne hwrites' hij)
    · exact ⟨m, between, m', hspans, Or.inl ⟨hwrites, hwrites'⟩,
        hspans.removes htold hrun.linked.1 hfirst hsecond⟩
    · exact ⟨m', between, m, hspans, Or.inr ⟨hwrites', hwrites⟩,
        hspans.removes htold hrun.linked.1 hsecond hfirst⟩
  · intro i principal resolved hprincipal hreturned
    obtain ⟨r, hr, hdone⟩ := hreturned
    have hinformed := hrun.informed i r hr
    obtain rfl := Option.some_inj.1 (hprincipal.symm.trans hinformed.principal)
    exact hinformed.returned hdone htold

/-! ### Requests that are not disturbed -/

/-- A request that is served at once makes a row for a principal that has none. -/
theorem Run.undisturbed {document changed : AwsAuth}
    (hrun : Run principals start events server callers)
    (hcaller : callers[i]? = some (.start AwsAuth.resolveOrCreate principal))
    (hprincipal : Arn.isUserOrRole principal = true) (hdocument : server.document = some document)
    (hfind : document.findUsername? principal = none)
    (happend : document.appendSelf principal = .ok changed) :
    ∃ callers', Run principals start
        (events ++ [⟨.called i .getAwsAuth (.ok (some document)), server, server⟩] ++
          [⟨.called i (.updateAwsAuth changed) (.ok ()), server,
            server.put (some (document.patched changed))⟩])
        (server.put (some (document.patched changed))) callers' ∧
      Returned callers' i ⟨principal, true⟩ ∧ ∀ j, j ≠ i → callers'[j]? = callers[j]? := by
  obtain ⟨next, hload, hnext⟩ : ∃ next,
      (Runner.start AwsAuth.resolveOrCreate principal).program = .call .getAwsAuth next ∧
        next (.ok (some document)) = (AwsAuth.enroll principal document).run := by
    show ∃ next, (AwsAuth.resolveOrCreate principal).run = .call .getAwsAuth next ∧ _
    rw [AwsAuth.resolveOrCreate_eq hprincipal]
    exact ⟨_, rfl, rfl⟩
  obtain ⟨last, henroll, hlast⟩ : ∃ last,
      (AwsAuth.enroll principal document).run = .call (.updateAwsAuth changed) last ∧
        last (.ok ()) = .done (.ok ⟨principal, true⟩) := by
    rw [AwsAuth.enroll_of_none hfind, happend]
    exact ⟨_, rfl, rfl⟩
  have hread : server.Serves .getAwsAuth (.ok (some document)) server := by
    rw [← hdocument]
    exact .read
  have hlt : i < callers.length := (List.getElem?_eq_some_iff.1 hcaller).1
  have hmid := Run.called i hrun hcaller hload hread
  have hfinal := Run.called i hmid (List.getElem?_set_self hlt) (hnext.trans henroll)
    (.written (.ok ()) hdocument (AwsAuth.resourceVersion_of_appendSelf happend))
  refine ⟨_, hfinal, ⟨_, List.getElem?_set_self (by simpa using hlt), hlast⟩, ?_⟩
  intro j hji
  rw [List.getElem?_set_ne hji.symm, List.getElem?_set_ne hji.symm]

/-- A document without entries, with the version of some write. -/
def blank (server : DocumentServer) : DocumentServer :=
  server.put (some ⟨"kube-system", "aws-auth", none, []⟩)

/-- A user whom nobody has mapped is mapped by a request that is not disturbed. -/
theorem Run.undisturbed_alice (hrun : Run principals start events (blank server) callers)
    (hcaller : callers[i]? = some (.start AwsAuth.resolveOrCreate AwsAuth.alice)) :
    ∃ events' final callers', Run principals start (events ++ events') final callers' ∧
      Returned callers' i ⟨AwsAuth.alice, true⟩ ∧ (∀ j, j ≠ i → callers'[j]? = callers[j]?) ∧
      final.username? AwsAuth.alice = some AwsAuth.alice ∧
      ∀ e ∈ events', ∀ document, e.before.document = some document → document.data = [] := by
  obtain ⟨document, hdocument, hdata⟩ : ∃ document, (blank server).document = some document ∧
      document.data = [] := ⟨_, rfl, rfl⟩
  have hvalues : ∀ part, document.values part = .ok [] := by
    intro part
    unfold AwsAuth.values
    rw [hdata]
    rfl
  have hfind : document.findUsername? AwsAuth.alice = none := by
    rw [AwsAuth.findUsername?_eq_none_iff]
    simp [AwsAuth.rows, AwsAuth.rowsOf, hvalues]
  have happend := AwsAuth.appendSelf_eq_ok_iff.2
    ⟨.users, [], AwsAuth.section_alice, hvalues .users, rfl⟩
  have hadds := AwsAuth.addsRow_of_appendSelf happend hfind (AwsAuth.readsBack_alice hdata)
  obtain ⟨callers', hrun', hreturned, hothers⟩ :=
    hrun.undisturbed hcaller (by decide +kernel) hdocument hfind happend
  rw [List.append_assoc] at hrun'
  refine ⟨_, _, callers', hrun', hreturned, hothers, ?_, ?_⟩
  · exact (AwsAuth.addsRow_patched hadds).findUsername?_self
  · intro e he d hd
    have hbefore : e.before = blank server := by
      rcases List.mem_cons.1 he with rfl | he
      · rfl
      · rw [List.mem_singleton.1 he]
    rw [hbefore, hdocument] at hd
    rw [← Option.some_inj.1 hd, hdata]

/-- A user is mapped twice, because a stranger empties the document in between. -/
theorem rows_kept_of_emptied : ∃ events server callers,
    Run [AwsAuth.alice, AwsAuth.alice] (blank ⟨none, 0, by simp⟩) events server callers ∧
    Returned callers 0 ⟨AwsAuth.alice, true⟩ ∧ Returned callers 1 ⟨AwsAuth.alice, true⟩ ∧
    (∃ e ∈ events, e.Removes AwsAuth.alice) ∧
    ∃ e, LastOf 1 events e ∧ e.after.username? AwsAuth.alice = some AwsAuth.alice := by
  have hbegin : Run [AwsAuth.alice, AwsAuth.alice] (blank ⟨none, 0, by simp⟩) [] _ _ := .nil
  obtain ⟨events, mid, callers, hrun, hreturned, hothers, -, hblank⟩ :=
    hbegin.undisturbed_alice (i := 0) rfl
  have hemptied := hrun.foreign (some ⟨"kube-system", "aws-auth", none, []⟩)
  obtain ⟨events', final, callers', hrun', hreturned', hothers', -, hblank'⟩ :=
    Run.undisturbed_alice (i := 1) hemptied (by rw [hothers 1 (by simp)]; rfl)
  have hfirst : Returned callers' 0 ⟨AwsAuth.alice, true⟩ := by
    obtain ⟨r, hr, hdone⟩ := hreturned
    exact ⟨r, by rw [hothers' 0 (by simp), hr], hdone⟩
  obtain ⟨-, hremoved, hnamed⟩ := rows_kept hrun' (by
    intro e he i sent reply principal document hcalled hprincipal hdocument
    obtain rfl : AwsAuth.alice = principal := by
      have hmem := List.mem_of_getElem? hprincipal
      simp at hmem
      exact hmem.symm
    refine AwsAuth.readsBack_alice ?_
    rcases List.mem_append.1 he with he | he
    · rcases List.mem_append.1 he with he | he
      · exact hblank e he document hdocument
      · rw [List.mem_singleton.1 he] at hcalled
        cases hcalled
    · exact hblank' e he document hdocument)
  obtain ⟨first, between, second, ⟨earlier, later, hevents⟩, -, e, he, hremoves⟩ :=
    hremoved 0 1 _ _ _ (by simp) rfl rfl hfirst hreturned'
  refine ⟨_, final, callers', hrun', hfirst, hreturned', ⟨e, ?_, hremoves⟩,
    hnamed 1 _ _ rfl hreturned'⟩
  rw [hevents]
  simp [he]

end SharedDocument

end ClusterAccess
