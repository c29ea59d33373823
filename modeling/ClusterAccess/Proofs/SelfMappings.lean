/-
Rows that map principals to themselves.

A principal without a username is given a row of its own at the end of the list of its section,
and the document is written back with it.  If the list is read back as it was rendered, which
is the business of the YAML library, then the new document has one row more and every other row
and entry as before (`AddsRow`).  The principal has its own name then, and nobody else's
username is another (`AddsRow.findUsername?_self`, `AddsRow.findUsername?_of_ne`).

A request for a username makes two calls at most: it reads the document, and it writes the one
that it has made of it (`resolveOrCreate_call`, `resolveOrCreate_ok`).
-/
import ClusterAccess.Proofs.History
import ClusterAccess.Proofs.Usernames

namespace ClusterAccess.AwsAuth

open Program (After History)
open Request

variable {document changed other : AwsAuth} {part : Section} {principal username : String}
  {values : List Yaml} {history : History Call Call.Reply}

/-! ### What is read off the entries -/

theorem findUsername?_eq_none_iff : document.findUsername? principal = none ↔
    ∀ row ∈ document.rows, row.principal ≠ principal := by
  simp [findUsername?]

/-- The values of a section are those of its entry. -/
theorem values_congr (hns : changed.ns = document.ns) (hname : changed.name = document.name)
    (hentry : changed.data.lookup part.key = document.data.lookup part.key) :
    changed.values part = document.values part := by
  unfold AwsAuth.values
  rw [hns, hname, hentry]

theorem rowsOf_congr (h : changed.values part = document.values part) :
    changed.rowsOf part = document.rowsOf part := by
  unfold rowsOf
  rw [h]

theorem key_ne_of_ne {part' : Section} (h : part' ≠ part) : part'.key ≠ part.key := by
  cases part' <;> cases part <;> first | exact absurd rfl h | decide

/-- The other section stays as it was. -/
theorem rowsOf_withSelf {part' : Section} (h : part' ≠ part) :
    (document.withSelf part values principal).rowsOf part' = document.rowsOf part' := by
  refine rowsOf_congr (values_congr rfl rfl ?_)
  show (setText part.key _ document.data).lookup part'.key = _
  rw [lookup_setText, if_neg (key_ne_of_ne h)]

/-- A row of the principal's own comes after the other rows of its section. -/
theorem rowsOf_of_values (hne : principal ≠ "") (hvalues : document.values part = .ok values)
    (hchanged : changed.values part = .ok (values ++ [selfRow part principal])) :
    changed.rowsOf part = document.rowsOf part ++ [⟨principal, some principal, []⟩] := by
  simp [rowsOf, hvalues, hchanged, rowOf?_selfRow, hne]

/-- When one section gets a row at its end, that row comes between the others of the document. -/
theorem rows_of_rowsOf {row : MappingRow} (hself : changed.rowsOf part = document.rowsOf part ++ [row])
    (hother : ∀ part', part' ≠ part → changed.rowsOf part' = document.rowsOf part') :
    ∃ before rest, document.rows = before ++ rest ∧ changed.rows = before ++ row :: rest := by
  unfold AwsAuth.rows
  cases part with
  | users =>
      refine ⟨document.rowsOf .users, document.rowsOf .roles, rfl, ?_⟩
      rw [hself, hother .roles (by simp)]
      simp
  | roles =>
      refine ⟨document.rowsOf .users ++ document.rowsOf .roles, [], by simp, ?_⟩
      rw [hself, hother .users (by simp)]
      simp

/-- A row between the others changes the username of nobody but the one that it names. -/
theorem findUsername?_of_rows {row : MappingRow} {before rest : List MappingRow} {someone : String}
    (hbefore : document.rows = before ++ rest) (hafter : changed.rows = before ++ row :: rest)
    (hne : someone ≠ row.principal) :
    changed.findUsername? someone = document.findUsername? someone := by
  unfold findUsername?
  rw [hbefore, hafter, List.find?_append, List.find?_append, List.find?_cons_of_neg]
  simpa using hne.symm

/-! ### One row more -/

/-- The changed document has a row that maps the principal to itself, which had none, and all that
the document had. -/
structure AddsRow (document changed : AwsAuth) (principal : String) : Prop where
  unnamed : document.findUsername? principal = none
  ns : changed.ns = document.ns
  name : changed.name = document.name
  added : ∃ part values, Section.ofPrincipal? principal = some part ∧
    document.values part = .ok values ∧
    changed.values part = .ok (values ++ [selfRow part principal]) ∧
    ∀ key, key ≠ part.key → changed.data.lookup key = document.data.lookup key

theorem addsRow_withSelf (hfind : document.findUsername? principal = none)
    (hpart : Section.ofPrincipal? principal = some part)
    (hvalues : document.values part = .ok values) (hback : document.ReadsBack principal) :
    document.AddsRow (document.withSelf part values principal) principal where
  unnamed := hfind
  ns := rfl
  name := rfl
  added := by
    refine ⟨part, values, hpart, hvalues, values_withSelf (hback part values hpart hvalues), ?_⟩
    intro key hkey
    show (setText part.key _ document.data).lookup key = _
    rw [lookup_setText, if_neg hkey]

/-- It is only the place and the entries of the new document that matter. -/
theorem AddsRow.congr (h : document.AddsRow changed principal) (hns : other.ns = changed.ns)
    (hname : other.name = changed.name)
    (hdata : ∀ key, other.data.lookup key = changed.data.lookup key) :
    document.AddsRow other principal where
  unnamed := h.unnamed
  ns := hns.trans h.ns
  name := hname.trans h.name
  added := by
    obtain ⟨part, values, hpart, hvalues, hchanged, hothers⟩ := h.added
    refine ⟨part, values, hpart, hvalues, ?_, fun key hkey => (hdata key).trans (hothers key hkey)⟩
    rw [values_congr hns hname (hdata part.key), hchanged]

/-- One row has come between the others. -/
theorem AddsRow.rows (h : document.AddsRow changed principal) :
    principal ≠ "" ∧ ∃ before rest, document.rows = before ++ rest ∧
      changed.rows = before ++ ⟨principal, some principal, []⟩ :: rest := by
  obtain ⟨part, values, hpart, hvalues, hchanged, hothers⟩ := h.added
  have hne := ne_empty_of_section hpart
  refine ⟨hne, rows_of_rowsOf (rowsOf_of_values hne hvalues hchanged) fun part' hpart' => ?_⟩
  exact rowsOf_congr (values_congr h.ns h.name (hothers _ (key_ne_of_ne hpart')))

/-- The principal has its own name. -/
theorem AddsRow.findUsername?_self (h : document.AddsRow changed principal) :
    changed.findUsername? principal = some principal := by
  obtain ⟨hne, before, rest, hbefore, hafter⟩ := h.rows
  have hnone : before.find? (fun row => row.principal = principal) = none := by
    rw [List.find?_eq_none]
    intro row hrow
    have hunnamed := findUsername?_eq_none_iff.1 h.unnamed row
    simpa using hunnamed (by simp [hbefore, hrow])
  unfold findUsername?
  rw [hafter, List.find?_append, hnone]
  simp [MappingRow.effectiveUsername, hne]

/-- Nobody else gets another name. -/
theorem AddsRow.findUsername?_of_ne (h : document.AddsRow changed principal) {someone : String}
    (hne : someone ≠ principal) :
    changed.findUsername? someone = document.findUsername? someone := by
  obtain ⟨-, before, rest, hbefore, hafter⟩ := h.rows
  exact findUsername?_of_rows hbefore hafter hne

/-- Whoever has a name keeps it. -/
theorem AddsRow.keeps (h : document.AddsRow changed principal) {someone : String}
    (hfind : document.findUsername? someone = some username) :
    changed.findUsername? someone = some username := by
  by_cases hsame : someone = principal
  · rw [hsame, h.unnamed] at hfind
    cases hfind
  · rw [h.findUsername?_of_ne hsame, hfind]

theorem addsRow_of_appendSelf (h : document.appendSelf principal = .ok changed)
    (hfind : document.findUsername? principal = none) (hback : document.ReadsBack principal) :
    document.AddsRow changed principal := by
  obtain ⟨part, values, hpart, hvalues, rfl⟩ := appendSelf_eq_ok_iff.1 h
  exact addsRow_withSelf hfind hpart hvalues hback

/-- With a row of its own that reads back, a principal that had no row has its own name. -/
theorem findUsername?_appendSelf (h : document.appendSelf principal = .ok changed)
    (hfind : document.findUsername? principal = none) (hback : document.ReadsBack principal) :
    changed.findUsername? principal = some principal :=
  (addsRow_of_appendSelf h hfind hback).findUsername?_self

/-- Is this a list of one user, which is mapped to itself? -/
def mapsOnly (principal : String) : Option (List Yaml) → Bool
  | some [.mapping [(.string field, .string arn), (.string name, .string username)]] =>
    decide (field = "userarn" ∧ arn = principal ∧ name = "username" ∧ username = principal)
  | _ => false

theorem eq_of_mapsOnly {found : Option (List Yaml)} (h : mapsOnly principal found = true) :
    found = some [selfRow .users principal] := by
  unfold mapsOnly at h
  split at h
  · obtain ⟨rfl, rfl, rfl, rfl⟩ := of_decide_eq_true h
    rfl
  · cases h

/-- A user. -/
def alice : String := "arn:aws:iam::111122223333:user/alice"

theorem section_alice : Section.ofPrincipal? alice = some .users := by decide +kernel

/-- The row of a user in a list that was absent is read back. -/
theorem readsBack_alice (hdata : document.data = []) : document.ReadsBack alice := by
  intro part values hpart hvalues
  obtain rfl := Option.some.inj (section_alice.symm.trans hpart)
  unfold AwsAuth.values at hvalues
  rw [hdata] at hvalues
  obtain rfl : [] = values := Except.ok.inj hvalues
  exact eq_of_mapsOnly (by decide +kernel)

theorem resourceVersion_of_appendSelf (h : document.appendSelf principal = .ok changed) :
    changed.resourceVersion = document.resourceVersion := by
  obtain ⟨part, values, -, -, rfl⟩ := appendSelf_eq_ok_iff.1 h
  rfl

/-! ### Requests for a username -/

/-- What a grant makes of the document. -/
def enroll (principal : String) (document : AwsAuth) : Request Resolved :=
  match document.findUsername? principal with
  | some username => pure ⟨username, false⟩
  | none =>
    ofOutcome (document.appendSelf principal) >>= fun changed =>
      send (.updateAwsAuth changed) >>= fun _ => pure ⟨principal, true⟩

theorem resolveOrCreate_eq (h : Arn.isUserOrRole principal = true) :
    resolveOrCreate principal = (load >>= enroll principal) := by
  unfold resolveOrCreate enroll
  rw [h]
  rfl

theorem resolveOrCreate_of_not (h : ¬Arn.isUserOrRole principal = true) :
    resolveOrCreate principal = throw (unsupportedPrincipal principal) := by
  unfold resolveOrCreate
  simp only [h, Bool.not_false, if_true]
  rfl

theorem enroll_of_some (h : document.findUsername? principal = some username) :
    enroll principal document = pure ⟨username, false⟩ := by
  unfold enroll
  rw [h]

theorem enroll_of_none (h : document.findUsername? principal = none) :
    enroll principal document =
      (ofOutcome (document.appendSelf principal) >>= fun changed =>
        send (.updateAwsAuth changed) >>= fun _ => pure ⟨principal, true⟩) := by
  unfold enroll
  rw [h]

theorem load_ok (h : After load.run history (.done (.ok document))) :
    history = [⟨.getAwsAuth, .ok (some document)⟩] := by
  obtain ⟨found, before, rest, rfl, hsend, hend⟩ := after_bind_ok_iff.1 h
  rw [after_send_done_iff.1 hsend]
  cases found with
  | none => cases (Program.after_done_iff.1 hend).2
  | some found =>
      obtain ⟨rfl, hvalue⟩ := after_pure_iff.1 hend
      obtain rfl := Except.ok.inj (Program.done.inj hvalue)
      rfl

theorem load_call {call : Call} {next : call.Reply → Program Call Call.Reply (Outcome AwsAuth)}
    (h : After load.run history (.call call next)) : call = .getAwsAuth ∧ history = [] := by
  rcases Request.after_bind_call h with ⟨_, hsend⟩ | ⟨found, _, _, -, -, hend⟩
  · exact after_send_call hsend
  · cases found with
    | none => cases (Program.after_done_iff.1 hend).2
    | some found => cases (after_pure_iff.1 hend).2

/-- The call that is due reads the document, or writes what has been made of it. -/
theorem resolveOrCreate_call {call : Call}
    {next : call.Reply → Program Call Call.Reply (Outcome Resolved)}
    (h : After (resolveOrCreate principal).run history (.call call next)) :
    call = .getAwsAuth ∧ history = [] ∨
      ∃ document changed, call = .updateAwsAuth changed ∧
        history = [⟨.getAwsAuth, .ok (some document)⟩] ∧
        document.findUsername? principal = none ∧ document.appendSelf principal = .ok changed := by
  by_cases hprincipal : Arn.isUserOrRole principal = true
  swap
  · rw [resolveOrCreate_of_not hprincipal] at h
    cases (Program.after_done_iff.1 h).2
  rw [resolveOrCreate_eq hprincipal] at h
  rcases Request.after_bind_call h with ⟨_, hload⟩ | ⟨document, before, rest, rfl, hload, henroll⟩
  · exact Or.inl (load_call hload)
  obtain rfl := load_ok hload
  cases hfind : document.findUsername? principal with
  | some username =>
      rw [enroll_of_some hfind] at henroll
      cases (after_pure_iff.1 henroll).2
  | none =>
      rw [enroll_of_none hfind] at henroll
      obtain ⟨changed, happend, hwrite⟩ := after_ofOutcome_bind_call henroll
      obtain ⟨_, hsend⟩ := after_bind_pure_call hwrite
      obtain ⟨rfl, rfl⟩ := after_send_call hsend
      exact Or.inr ⟨document, changed, rfl, rfl, hfind, happend⟩

/-- A request that succeeds has read the username, or has written a row for its principal. -/
theorem resolveOrCreate_ok {resolved : Resolved}
    (h : After (resolveOrCreate principal).run history (.done (.ok resolved))) :
    Arn.isUserOrRole principal = true ∧
      ((∃ document, history = [⟨.getAwsAuth, .ok (some document)⟩] ∧
          document.findUsername? principal = some resolved.username ∧ resolved.created = false) ∨
        ∃ document changed, history =
            [⟨.getAwsAuth, .ok (some document)⟩, ⟨.updateAwsAuth changed, .ok ()⟩] ∧
          document.findUsername? principal = none ∧ document.appendSelf principal = .ok changed ∧
          resolved = ⟨principal, true⟩) := by
  by_cases hprincipal : Arn.isUserOrRole principal = true
  swap
  · rw [resolveOrCreate_of_not hprincipal] at h
    cases (Program.after_done_iff.1 h).2
  refine ⟨hprincipal, ?_⟩
  rw [resolveOrCreate_eq hprincipal] at h
  obtain ⟨document, before, rest, rfl, hload, henroll⟩ := after_bind_ok_iff.1 h
  obtain rfl := load_ok hload
  cases hfind : document.findUsername? principal with
  | some username =>
      rw [enroll_of_some hfind] at henroll
      obtain ⟨rfl, hresolved⟩ := after_pure_iff.1 henroll
      obtain rfl := Except.ok.inj (Program.done.inj hresolved)
      exact Or.inl ⟨document, rfl, hfind, rfl⟩
  | none =>
      rw [enroll_of_none hfind] at henroll
      obtain ⟨changed, happend, hwrite⟩ := after_ofOutcome_bind_ok henroll
      obtain ⟨_, sent, last, rfl, hsend, hend⟩ := after_bind_ok_iff.1 hwrite
      rw [after_send_done_iff.1 hsend]
      obtain ⟨rfl, hresolved⟩ := after_pure_iff.1 hend
      obtain rfl := Except.ok.inj (Program.done.inj hresolved)
      exact Or.inr ⟨document, changed, rfl, hfind, happend, rfl⟩

end ClusterAccess.AwsAuth
