/-
What is gathered from the members of a list.

A listing looks into one member after another and puts together what it finds.  So it can be
read off the visits to the members, each with what was done meanwhile and what was found:
everything that is gathered was found on one of them, in their order (`gather_ok_iff`), and
when a visit fails nothing is gathered and nobody behind it is visited (`gather_error_iff`).

Nothing is asked of a visit.  It is a program like any other: it may make calls, find something
else the next time, or fail.  A reader that makes no calls goes through a list in the same way, and
reads all of it or nothing (`mapM_eq_some_iff`).
-/
import Mathlib.Data.List.Forall2
import ClusterAccess.Proofs.History

namespace ClusterAccess

open Program (After History)

/-! ### Lists of lists -/

instance {Op : Type} {Reply : Op → Type} : LawfulMonad (Program Op Reply) :=
  LawfulMonad.mk' _ Program.bind_done (fun _ _ => rfl) Program.bind_assoc

section

variable {m : Type → Type} [Monad m] {α β γ : Type} {action : α → m (List β)}

theorem gather_map (f : γ → α) (items : List γ) :
    gather action (items.map f) = gather (fun c => action (f c)) items := by
  induction items with
  | nil => rfl
  | cons c rest ih => rw [List.map_cons, gather, gather, ih]

variable [LawfulMonad m]

theorem gather_append (first second : List α) :
    gather action (first ++ second) =
      gather action first >>= fun head => gather action second >>= fun tail =>
        pure (head ++ tail) := by
  induction first with
  | nil => simp [gather]
  | cons a rest ih =>
      simp only [List.cons_append, gather, ih, bind_assoc, pure_bind, List.append_assoc]

/-- What is gathered part by part is gathered from all the parts together. -/
theorem gather_flatMap (parts : γ → List α) (items : List γ) :
    gather (fun c => gather action (parts c)) items = gather action (items.flatMap parts) := by
  induction items with
  | nil => rfl
  | cons c rest ih => rw [List.flatMap_cons, gather_append, ← ih, gather]

end

/-! ### Reading item by item -/

/-- A list is read as what its items are read as, one by one. -/
theorem mapM_eq_some_iff {α β : Type} {R : β → α → Prop} {read : β → Option α}
    (hread : ∀ value said, read value = some said ↔ R value said) {items : List β} {said : List α} :
    items.mapM read = some said ↔ List.Forall₂ R items said := by
  induction items generalizing said with
  | nil =>
      rw [List.mapM_nil]
      refine ⟨fun h => ?_, fun h => ?_⟩
      · cases h
        exact .nil
      · cases h
        rfl
  | cons item items ih =>
      rw [List.mapM_cons]
      refine ⟨fun h => ?_, fun h => ?_⟩
      · obtain ⟨first, hfirst, h⟩ := Option.bind_eq_some_iff.1 h
        obtain ⟨rest, hrest, h⟩ := Option.bind_eq_some_iff.1 h
        cases h
        exact .cons ((hread _ _).1 hfirst) (ih.1 hrest)
      · cases h with
        | cons hfirst hrest =>
            rw [(hread _ _).2 hfirst, ih.2 hrest]
            rfl

/-! ### Visits -/

/-- A member of a list was looked into: this is what was done meanwhile, and what was found. -/
structure Visit (α γ Op : Type) (Reply : Op → Type) where
  member : α
  history : History Op Reply
  found : γ

section

variable {Op : Type} {Reply : Op → Type} {α β γ : Type}
  {action : α → ExceptT Fault (Program Op Reply) (List β)}
  {look : α → ExceptT Fault (Program Op Reply) γ} {give : α → γ → List β} {a : α}
  {items : List α} {history : History Op Reply} {gathered : List β} {fault : Fault}

theorem gather_cons_ok_iff :
    After (gather action (a :: items)).run history (.done (.ok gathered)) ↔
      ∃ head tail before later, history = before ++ later ∧
        After (action a).run before (.done (.ok head)) ∧
        After (gather action items).run later (.done (.ok tail)) ∧ gathered = head ++ tail := by
  rw [gather, Request.after_bind_ok_iff]
  refine ⟨fun h => ?_, fun h => ?_⟩
  · obtain ⟨head, before, rest, rfl, hhead, hrest⟩ := h
    obtain ⟨tail, later, last, rfl, htail, hlast⟩ := Request.after_bind_ok_iff.1 hrest
    obtain ⟨rfl, hgathered⟩ := Program.after_done_iff.1 hlast
    rw [List.append_nil]
    exact ⟨head, tail, before, later, rfl, hhead, htail,
      Except.ok.inj (Program.done.inj hgathered)⟩
  · obtain ⟨head, tail, before, later, rfl, hhead, htail, rfl⟩ := h
    exact ⟨head, before, later, rfl, hhead, Request.after_bind_ok_iff.2
      ⟨tail, later, [], (List.append_nil later).symm, htail, .start _⟩⟩

theorem gather_cons_error_iff :
    After (gather action (a :: items)).run history (.done (.error fault)) ↔
      After (action a).run history (.done (.error fault)) ∨
        ∃ head before later, history = before ++ later ∧
          After (action a).run before (.done (.ok head)) ∧
          After (gather action items).run later (.done (.error fault)) := by
  rw [gather, Request.after_bind_error_iff]
  refine or_congr_right ⟨fun h => ?_, fun h => ?_⟩
  · obtain ⟨head, before, later, rfl, hhead, hrest⟩ := h
    rcases Request.after_bind_error_iff.1 hrest with htail | ⟨tail, _, last, -, -, hlast⟩
    · exact ⟨head, before, later, rfl, hhead, htail⟩
    · cases (Program.after_done_iff.1 hlast).2
  · obtain ⟨head, before, later, rfl, hhead, htail⟩ := h
    exact ⟨head, before, later, rfl, hhead, Request.after_bind_error_iff.2 (Or.inl htail)⟩

/-- What is given for what was found is given when it was found. -/
theorem after_give_ok_iff {part : List β} :
    After (look a >>= fun found => pure (give a found)).run history (.done (.ok part)) ↔
      ∃ found, After (look a).run history (.done (.ok found)) ∧ part = give a found := by
  rw [Request.after_bind_ok_iff]
  refine ⟨fun h => ?_, fun h => ?_⟩
  · obtain ⟨found, before, last, rfl, hfound, hlast⟩ := h
    obtain ⟨rfl, hpart⟩ := Program.after_done_iff.1 hlast
    rw [List.append_nil]
    exact ⟨found, hfound, Except.ok.inj (Program.done.inj hpart)⟩
  · obtain ⟨found, hfound, rfl⟩ := h
    exact ⟨found, history, [], (List.append_nil history).symm, hfound, .start _⟩

theorem after_give_error_iff :
    After (look a >>= fun found => pure (give a found)).run history (.done (.error fault)) ↔
      After (look a).run history (.done (.error fault)) := by
  rw [Request.after_bind_error_iff]
  refine ⟨fun h => ?_, Or.inl⟩
  rcases h with hlook | ⟨found, _, last, -, -, hlast⟩
  · exact hlook
  · cases (Program.after_done_iff.1 hlast).2

/-- The visit went the way of the lookup. -/
def Visit.Follows (look : α → ExceptT Fault (Program Op Reply) γ) (visit : Visit α γ Op Reply) :
    Prop :=
  After (look visit.member).run visit.history (.done (.ok visit.found))

/-- What is gathered was found on visits to the members, one after another. -/
theorem gather_ok_iff :
    After (gather (fun a => look a >>= fun found => pure (give a found)) items).run history
        (.done (.ok gathered)) ↔
      ∃ visits : List (Visit α γ Op Reply), visits.map Visit.member = items ∧
        (∀ visit ∈ visits, visit.Follows look) ∧ history = visits.flatMap Visit.history ∧
        gathered = visits.flatMap fun visit => give visit.member visit.found := by
  induction items generalizing history gathered with
  | nil =>
      refine ⟨fun h => ?_, fun h => ?_⟩
      · obtain ⟨rfl, hgathered⟩ := Program.after_done_iff.1 h
        exact ⟨[], rfl, nofun, rfl, Except.ok.inj (Program.done.inj hgathered)⟩
      · obtain ⟨visits, hmembers, -, rfl, rfl⟩ := h
        rw [List.map_eq_nil_iff.1 hmembers]
        exact .start _
  | cons a rest ih =>
      rw [gather_cons_ok_iff]
      refine ⟨fun h => ?_, fun h => ?_⟩
      · obtain ⟨head, tail, before, later, rfl, hhead, htail, rfl⟩ := h
        obtain ⟨found, hfound, rfl⟩ := after_give_ok_iff.1 hhead
        obtain ⟨visits, rfl, hfollows, rfl, rfl⟩ := ih.1 htail
        exact ⟨⟨a, before, found⟩ :: visits, rfl, List.forall_mem_cons.2 ⟨hfound, hfollows⟩,
          rfl, rfl⟩
      · obtain ⟨visits, hmembers, hfollows, rfl, rfl⟩ := h
        obtain ⟨visit, others, rfl, rfl, rfl⟩ := List.map_eq_cons_iff.1 hmembers
        obtain ⟨hvisit, hothers⟩ := List.forall_mem_cons.1 hfollows
        exact ⟨_, _, visit.history, _, rfl, after_give_ok_iff.2 ⟨_, hvisit, rfl⟩,
          ih.2 ⟨others, rfl, hothers, rfl, rfl⟩, rfl⟩

/-- Nothing is gathered when a visit fails, and then the members behind it are not visited. -/
theorem gather_error_iff :
    After (gather (fun a => look a >>= fun found => pure (give a found)) items).run history
        (.done (.error fault)) ↔
      ∃ (visits : List (Visit α γ Op Reply)) (a : α) (rest : List α) (last : History Op Reply),
        items = visits.map Visit.member ++ a :: rest ∧ (∀ visit ∈ visits, visit.Follows look) ∧
        After (look a).run last (.done (.error fault)) ∧
        history = visits.flatMap Visit.history ++ last := by
  induction items generalizing history with
  | nil =>
      refine ⟨fun h => ?_, fun h => ?_⟩
      · cases (Program.after_done_iff.1 h).2
      · obtain ⟨visits, a, rest, last, hitems, -⟩ := h
        simp at hitems
  | cons a rest ih =>
      rw [gather_cons_error_iff]
      refine ⟨fun h => ?_, fun h => ?_⟩
      · rcases h with hlook | ⟨head, before, later, rfl, hhead, htail⟩
        · exact ⟨[], a, rest, history, rfl, nofun, after_give_error_iff.1 hlook, rfl⟩
        · obtain ⟨found, hfound, rfl⟩ := after_give_ok_iff.1 hhead
          obtain ⟨visits, b, others, last, rfl, hfollows, hfails, rfl⟩ := ih.1 htail
          exact ⟨⟨a, before, found⟩ :: visits, b, others, last, rfl,
            List.forall_mem_cons.2 ⟨hfound, hfollows⟩, hfails, by simp⟩
      · obtain ⟨visits, b, others, last, hitems, hfollows, hfails, rfl⟩ := h
        cases visits with
        | nil =>
            obtain ⟨rfl, rfl⟩ := List.cons.inj hitems
            exact Or.inl (after_give_error_iff.2 hfails)
        | cons visit visits =>
            obtain ⟨rfl, rfl⟩ := List.cons.inj hitems
            obtain ⟨hvisit, hvisits⟩ := List.forall_mem_cons.1 hfollows
            refine Or.inr ⟨_, visit.history, visits.flatMap Visit.history ++ last, by simp,
              after_give_ok_iff.2 ⟨_, hvisit, rfl⟩, ?_⟩
            exact ih.2 ⟨visits, b, others, last, rfl, hvisits, hfails, rfl⟩

end

/-! ### Lists that are always gathered -/

section

variable {Op : Type} {Reply : Op → Type} {α β : Type}

theorem makes_gather {P : Op → Prop} {action : α → ExceptT Fault (Program Op Reply) (List β)}
    {items : List α} (h : ∀ a ∈ items, (action a).run.Makes P) : (gather action items).run.Makes P := by
  induction items with
  | nil => trivial
  | cons a rest ih =>
      obtain ⟨ha, hrest⟩ := List.forall_mem_cons.1 h
      exact Request.makes_bind ha fun head => Request.makes_bind (ih hrest) fun tail => trivial

/-- Whatever the replies are, it comes to an end and does not fail. -/
structure Succeeds (p : ExceptT Fault (Program Op Reply) α) : Prop where
  ends : p.run.Makes fun _ => True
  ok : ∀ history fault, ¬After p.run history (.done (.error fault))

theorem succeeds_pure (value : α) : Succeeds (pure value : ExceptT Fault (Program Op Reply) α) := by
  refine ⟨trivial, fun history fault h => ?_⟩
  cases (Program.after_done_iff.1 h).2

theorem Succeeds.bind {p : ExceptT Fault (Program Op Reply) α}
    {f : α → ExceptT Fault (Program Op Reply) β} (h : Succeeds p) (hf : ∀ value, Succeeds (f value)) :
    Succeeds (p >>= f) := by
  refine ⟨Request.makes_bind h.ends fun value => (hf value).ends, fun history fault hafter => ?_⟩
  rcases Request.after_bind_error_iff.1 hafter with hp | ⟨value, before, rest, -, -, hrest⟩
  · exact h.ok history fault hp
  · exact (hf value).ok rest fault hrest

theorem succeeds_gather {action : α → ExceptT Fault (Program Op Reply) (List β)} {items : List α}
    (h : ∀ a ∈ items, Succeeds (action a)) : Succeeds (gather action items) := by
  induction items with
  | nil => exact succeeds_pure []
  | cons a rest ih =>
      obtain ⟨ha, hrest⟩ := List.forall_mem_cons.1 h
      exact ha.bind fun head => (ih hrest).bind fun tail => succeeds_pure (head ++ tail)

end

end ClusterAccess
