/-
Who is behind an identity, as sessions see it.

A lookup is answered from a snapshot of the mappings, which is read again when it has
expired.  What can be relied on is little: that the control plane stays as it is, that only
certain calls fail, and that whatever the two sources then say is sound, in a sense that
those who look something up may choose (`LoadsOnly`).  As long as the snapshot that is kept is
stale or sound, every lookup that comes to an end has been answered from sound mappings
(`ensures_lookup`).

A session is judged by how it ends.  One that waits for an endless listing, or that is cut
off by a deadline, has no outcome, and nothing is said of it (`Ensures`).
-/
import ClusterAccess.Identity.Lookup
import ClusterAccess.Proofs.TrialRuns

namespace ClusterAccess

open Program (After History Asks Makes)

/-! ### Reading -/

namespace ControlPlane

variable {α : Type}

/-- A request can have this outcome while the control plane stays as it is. -/
def Answers (plane : ControlPlane) (mayFail : Call → Prop) (request : Request α)
    (outcome : Outcome α) : Prop :=
  ∃ history, After request.run history (.done outcome) ∧ plane.Acts mayFail history plane

variable {plane after after' : ControlPlane} {mayFail mayFail' : Call → Prop}
  {history history' : History Call Call.Reply}

/-- Where nothing may fail, a program ends in one way only. -/
theorem Acts.done_unique {p : Program Call Call.Reply α} {value value' : α}
    (hsure : ∀ call, ¬mayFail call) (hsure' : ∀ call, ¬mayFail' call)
    (h : After p history (.done value)) (hacts : plane.Acts mayFail history after)
    (h' : After p history' (.done value')) (hacts' : plane.Acts mayFail' history' after') :
    value = value' := by
  induction p generalizing plane history history' with
  | done result =>
      cases h
      cases h'
      rfl
  | call call next ih =>
      cases h with
      | reply h =>
          cases h' with
          | reply h' =>
              obtain ⟨rfl, hrest⟩ := hacts.of_sure (hsure call)
              obtain ⟨rfl, hrest'⟩ := hacts'.of_sure (hsure' call)
              exact ih _ h hrest h' hrest'
  | unfinished => cases h

/-- So a request has one answer. -/
theorem Answers.unique {request : Request α} {outcome outcome' : Outcome α}
    (hsure : ∀ call, ¬mayFail call) (hsure' : ∀ call, ¬mayFail' call)
    (h : plane.Answers mayFail request outcome) (h' : plane.Answers mayFail' request outcome') :
    outcome = outcome' := by
  obtain ⟨_, hafter, hacts⟩ := h
  obtain ⟨_, hafter', hacts'⟩ := h'
  exact Acts.done_unique hsure hsure' hafter hacts hafter' hacts'

end ControlPlane

namespace Trial

variable {α β : Type} {plane : ControlPlane} {mayFail : Call → Prop} {limit : Option Nat}
  {t after : Trial}

/-- The control plane is this one, and only such calls may fail. -/
structure Settled (plane : ControlPlane) (mayFail : Call → Prop) (t : Trial) : Prop where
  plane_eq : t.plane = plane
  server : t.server = none
  sure : ∀ call, t.MayFail call → mayFail call

/-- A request that only reads leaves everything settled. -/
theorem Settled.runRequest {request : Request α} {outcome : Outcome α}
    (h : t.Settled plane mayFail) (hreads : request.run.Asks fun call => call.isWrite = false)
    (hrun : (runRequest limit request).run t = (some outcome, after)) :
    after.Settled plane mayFail ∧ plane.Answers mayFail request outcome := by
  obtain ⟨⟨history, hafter, hacts⟩, hserver, hless⟩ := acts_of_run h.server hrun
  have hplane : after.plane = t.plane := hacts.eq_of_reads (hreads history _ hafter)
  rw [hplane, h.plane_eq] at hacts
  exact ⟨⟨hplane.trans h.plane_eq, hserver, fun call hcall => h.sure call (hless call hcall)⟩,
    history, hafter, hacts.mono h.sure⟩

/-- So do two requests side by side. -/
theorem Settled.runBoth {first second : Request α} {outcomes : Outcome α × Outcome α}
    (h : t.Settled plane mayFail) (hfirst : first.run.Asks fun call => call.isWrite = false)
    (hsecond : second.run.Asks fun call => call.isWrite = false)
    (hrun : (Trial.runBoth limit first second).run t = (some outcomes, after)) :
    after.Settled plane mayFail ∧ plane.Answers mayFail first outcomes.1 ∧
      plane.Answers mayFail second outcomes.2 := by
  obtain ⟨_, _, hget, hrun⟩ := run_bind_eq_some.1 hrun
  cases hget
  obtain ⟨_, _, hget, hrun⟩ := run_bind_eq_some.1 hrun
  cases hget
  cases ha : (Trial.runRequest limit first).run t with
  | mk a mid =>
  rw [ha] at hrun
  dsimp only at hrun
  cases hb : (Trial.runRequest limit second).run { mid with now := t.now } with
  | mk b last =>
  rw [hb] at hrun
  cases a with
  | none => cases hrun
  | some a =>
  cases b with
  | none => cases hrun
  | some b =>
      cases hrun
      obtain ⟨hmid, hanswer⟩ := h.runRequest hfirst ha
      have hagain : Settled plane mayFail { mid with now := t.now } :=
        ⟨hmid.plane_eq, hmid.server, hmid.sure⟩
      obtain ⟨hlast, hanswer'⟩ := hagain.runRequest hsecond hb
      exact ⟨⟨hlast.plane_eq, hlast.server, hlast.sure⟩, hanswer, hanswer'⟩

/-- A control plane gives the answer that a request gets from it alone. -/
theorem answers_of_run {request : Request α} {outcome : Outcome α}
    (hreads : request.run.Asks fun call => call.isWrite = false)
    (h : ((Trial.runRequest none request).run { plane }).1 = some outcome) :
    plane.Answers (fun _ => False) request outcome := by
  have hsettled : Settled plane (fun _ => False) { plane } := ⟨rfl, rfl, not_mayFail rfl⟩
  exact (hsettled.runRequest hreads (run_eq h)).2

/-! ### Running sessions -/

variable {σ : Type} {Op : Type} {Reply : Op → Type} {action : (op : Op) → Run σ (Reply op)}

theorem program_run_bind (p : Program Op Reply α) (f : α → Program Op Reply β) :
    (p >>= f).run action = p.run action >>= fun value => (f value).run action := by
  induction p with
  | done value => exact (pure_bind value fun value => (f value).run action).symm
  | call op next ih =>
      have hcall : (Program.call op next >>= f).run action =
          action op >>= fun reply => (next reply >>= f).run action := rfl
      rw [hcall, funext ih, ← bind_assoc]
      rfl
  | unfinished => rfl

/-- The requests of a session run as they do alone. -/
theorem run_embed_eq_some {p : Program Call Call.Reply α} {shelves : Shelves}
    {s : Shelves × Trial} {value : α}
    (h : ((p.embed Step.call fun _ reply => reply).run (takeStep limit)).run (shelves, t) =
      (some value, s)) :
    ∃ after, s = (shelves, after) ∧ (p.run (perform limit)).run t = (some value, after) := by
  induction p generalizing t with
  | done result =>
      cases h
      exact ⟨t, rfl, rfl⟩
  | call call next ih =>
      obtain ⟨reply, mid, hstep, hnext⟩ := run_bind_eq_some.1 h
      obtain ⟨_, _, hget, hstep⟩ := run_bind_eq_some.1 hstep
      cases hget
      dsimp only at hstep
      cases hperform : (perform limit call).run t with
      | mk result after =>
          rw [hperform] at hstep
          cases result with
          | none => cases hstep
          | some result =>
              cases hstep
              obtain ⟨last, rfl, hrun⟩ := ih _ hnext
              exact ⟨last, rfl, run_bind_eq_some.2 ⟨_, _, hperform, hrun⟩⟩
  | unfinished => cases h

end Trial

/-! ### What is gathered -/

section Gathered

variable {α β : Type}

/-- A list that was gathered is made of parts, one for each member. -/
inductive Gathered (R : α → List β → Prop) : List α → List β → Prop
  | nil : Gathered R [] []
  | cons {a : α} {part gathered : List β} {items : List α} (h : R a part)
      (hrest : Gathered R items gathered) : Gathered R (a :: items) (part ++ gathered)

variable {R : α → List β → Prop} {items : List α} {gathered : List β}

theorem Gathered.part_of_mem (h : Gathered R items gathered) {a : α} (ha : a ∈ items) :
    ∃ part, R a part ∧ ∀ x ∈ part, x ∈ gathered := by
  induction h with
  | nil => cases ha
  | @cons first part _ _ hpart _ ih =>
      rcases List.mem_cons.1 ha with rfl | hrest
      · exact ⟨part, hpart, fun x hx => List.mem_append_left _ hx⟩
      · obtain ⟨found, hfound, hmem⟩ := ih hrest
        exact ⟨found, hfound, fun x hx => List.mem_append_right _ (hmem x hx)⟩

/-- When the parts can only be those of a function, so is the whole. -/
theorem Gathered.eq_flatMap {g : α → List β} (h : Gathered R items gathered)
    (hg : ∀ a part, R a part → part = g a) : gathered = items.flatMap g := by
  induction h with
  | nil => rfl
  | cons hpart _ ih => rw [List.flatMap_cons, hg _ _ hpart, ih]

end Gathered

/-! ### How sessions end -/

namespace Session

open Trial (Shelves runSession takeStep)

variable {α β : Type} {limit : Option Nat}

/-- Started like this, the session succeeds if it comes to an end, with a value and in a state that
are as they should be. -/
def Ensures (limit : Option Nat) (Pre : Shelves × Trial → Prop) (session : Session α)
    (Post : α → Shelves × Trial → Prop) : Prop :=
  ∀ s s' outcome, Pre s → (runSession limit session).run s = (some outcome, s') →
    ∃ value, outcome = .ok value ∧ Post value s'

variable {Pre Inv : Shelves × Trial → Prop} {session : Session α}
  {Mid Post : α → Shelves × Trial → Prop} {f : α → Session β}
  {Last : β → Shelves × Trial → Prop}

theorem ensures_pure {value : α} (h : ∀ s, Pre s → Post value s) :
    Ensures limit Pre (pure value) Post := by
  intro s s' outcome hs hrun
  cases hrun
  exact ⟨value, rfl, h s hs⟩

theorem Ensures.bind (h : Ensures limit Pre session Mid)
    (hf : ∀ value, Ensures limit (Mid value) (f value) Last) :
    Ensures limit Pre (session >>= f) Last := by
  intro s s' outcome hs hrun
  have hsplit : ((session >>= f).run.run (takeStep limit)).run s = (some outcome, s') := hrun
  rw [ExceptT.run_bind, Trial.program_run_bind] at hsplit
  obtain ⟨first, mid, hfirst, hrest⟩ := Trial.run_bind_eq_some.1 hsplit
  obtain ⟨value, rfl, hvalue⟩ := h s mid first hs hfirst
  exact hf value mid s' outcome hvalue hrest

theorem Ensures.of_pre {Weak : Shelves × Trial → Prop} (h : Ensures limit Weak session Post)
    (hpre : ∀ s, Pre s → Weak s) : Ensures limit Pre session Post :=
  fun s s' outcome hs => h s s' outcome (hpre s hs)

/-- What a session ensures may rest on a fact that does not depend on the state. -/
theorem ensures_of_fact {fact : Prop} (h : fact → Ensures limit Pre session Post) :
    Ensures limit (fun s => fact ∧ Pre s) session Post :=
  fun s s' outcome hs => h hs.1 s s' outcome hs.2

theorem ensures_take {step : Step} {After : step.Reply → Shelves × Trial → Prop}
    (h : ∀ s s' reply, Pre s → (takeStep limit step).run s = (some reply, s') → After reply s') :
    Ensures limit Pre (take step) After := by
  intro s s' outcome hs hrun
  obtain ⟨reply, mid, hstep, hend⟩ := Trial.run_bind_eq_some.1 hrun
  cases hend
  exact ⟨reply, rfl, h s s' reply hs hstep⟩

/-- A lock is free, and taking it changes nothing. -/
theorem Ensures.holding {shelf : Shelf} (h : Ensures limit Pre session Post) :
    Ensures limit Pre (holding shelf session) Post := by
  have hlock : Ensures limit Pre (take (.lock shelf)) fun _ => Pre := by
    refine ensures_take fun s s' _ hs hstep => ?_
    cases hstep
    exact hs
  have hattempt : Ensures limit Pre (attempt session) fun outcome s =>
      ∃ value, outcome = .ok value ∧ Post value s := by
    intro s s' outcome hs hrun
    have hsplit : ((session.run >>= fun attempted => .done (.ok attempted)).run
        (takeStep limit)).run s = (some outcome, s') := hrun
    rw [Trial.program_run_bind] at hsplit
    obtain ⟨attempted, mid, hfirst, hend⟩ := Trial.run_bind_eq_some.1 hsplit
    cases hend
    exact ⟨attempted, rfl, h s s' attempted hs hfirst⟩
  refine hlock.bind fun _ => hattempt.bind fun attempted => ?_
  have hunlock : Ensures limit (fun s => ∃ value, attempted = .ok value ∧ Post value s)
      (take (.unlock shelf)) fun _ s => ∃ value, attempted = .ok value ∧ Post value s := by
    refine ensures_take fun s s' _ hs hstep => ?_
    cases hstep
    exact hs
  refine hunlock.bind fun _ s s' outcome hs hrun => ?_
  obtain ⟨value, rfl, hvalue⟩ := hs
  cases hrun
  exact ⟨value, rfl, hvalue⟩

theorem ensures_gather {f : α → Session (List β)} {R : α → List β → Prop}
    (h : ∀ a, Ensures limit Inv (f a) fun part s => R a part ∧ Inv s) (items : List α) :
    Ensures limit Inv (gather f items) fun gathered s => Gathered R items gathered ∧ Inv s := by
  induction items with
  | nil => exact ensures_pure fun s hs => ⟨.nil, hs⟩
  | cons a rest ih =>
      unfold gather
      refine (h a).bind fun part => ensures_of_fact fun hpart => ?_
      refine ih.bind fun gathered => ensures_of_fact fun hgathered => ?_
      exact ensures_pure fun s hs => ⟨.cons hpart hgathered, hs⟩

end Session

/-! ### Snapshots -/

namespace AwsAuth

theorem asks_readMappings : readMappings.run.Asks fun call => call.isWrite = false := by
  have hload : load.run.Makes fun call => call.isWrite = false := by
    refine ⟨rfl, fun reply => ?_⟩
    cases reply with
    | error fault => trivial
    | ok document => cases document <;> trivial
  exact Request.asks_bind hload.asks fun _ => Makes.asks trivial

end AwsAuth

namespace AccessEntry

theorem asks_readMappings (maxPages : Nat) :
    (readMappings maxPages).run.Asks fun call => call.isWrite = false := by
  have hpage : ∀ token, (listPage token).run.Asks fun call => call.isWrite = false :=
    fun token => Request.asks_bind (Makes.asks ⟨rfl, fun _ => trivial⟩) fun _ => Makes.asks trivial
  have hrow : ∀ principal, (readRow principal).run.Asks fun call => call.isWrite = false := by
    intro principal
    refine Request.asks_bind (Makes.asks ⟨rfl, fun _ => trivial⟩) fun outcome => ?_
    rcases outcome with fault | _ | entry <;> exact Makes.asks trivial
  refine Request.asks_bind (Request.asks_collectPages hpage maxPages none) fun principals => ?_
  exact Request.asks_bind (Request.asks_gather hrow _) fun _ => Makes.asks trivial

end AccessEntry

namespace Identity

open Session
open Trial (Shelves Settled)

variable {plane : ControlPlane} {mayFail : Call → Prop} {Sound : Mappings → Prop} {upkeep : Upkeep}
  {limit : Option Nat}

/-- Whatever the sources say when they are read, the mappings are sound. -/
def LoadsOnly (plane : ControlPlane) (mayFail : Call → Prop) (maxPages : Nat)
    (Sound : Mappings → Prop) : Prop :=
  ∀ document entries, plane.Answers mayFail AwsAuth.readMappings document →
    plane.Answers mayFail (AccessEntry.readMappings maxPages) entries →
      ∃ mappings, combine document entries = .ok mappings ∧ Sound mappings

/-- The snapshot that is kept is stale or sound. -/
def Ready (plane : ControlPlane) (mayFail : Call → Prop) (Sound : Mappings → Prop)
    (s : Shelves × Trial) : Prop :=
  s.2.Settled plane mayFail ∧
    (s.1.identities.expiry = .stale ∨ Sound s.1.identities.value)

/-- The snapshot that is kept is sound. -/
def Loaded (plane : ControlPlane) (mayFail : Call → Prop) (Sound : Mappings → Prop)
    (s : Shelves × Trial) : Prop :=
  s.2.Settled plane mayFail ∧ Sound s.1.identities.value

theorem Loaded.ready {s : Shelves × Trial} (h : Loaded plane mayFail Sound s) :
    Ready plane mayFail Sound s :=
  ⟨h.1, Or.inr h.2⟩

/-- A request of a session that only reads has one of the outcomes that it can have. -/
theorem ensures_ofRequest {α : Type} {request : Request α} {value : α}
    (hreads : request.run.Asks fun call => call.isWrite = false)
    (hanswer : ∀ outcome, plane.Answers mayFail request outcome → outcome = .ok value) :
    Ensures limit (Ready plane mayFail Sound) (ofRequest request)
      fun found s => found = value ∧ Ready plane mayFail Sound s := by
  intro s s' outcome hs hrun
  obtain ⟨shelves, t⟩ := s
  obtain ⟨after, rfl, hrequest⟩ := Trial.run_embed_eq_some hrun
  obtain ⟨hafter, hfound⟩ := hs.1.runRequest hreads hrequest
  exact ⟨value, hanswer outcome hfound, rfl, hafter, hs.2⟩

theorem ensures_load (hsources : LoadsOnly plane mayFail upkeep.maxPages Sound) :
    Ensures limit (Ready plane mayFail Sound) (load upkeep.maxPages)
      fun mappings s => Sound mappings ∧ Ready plane mayFail Sound s := by
  have hread : Ensures limit (Ready plane mayFail Sound)
      (take (.sideBySide AwsAuth.readMappings (AccessEntry.readMappings upkeep.maxPages)))
      fun read s => (∃ mappings, combine read.1 read.2 = .ok mappings ∧ Sound mappings) ∧
        Ready plane mayFail Sound s := by
    refine ensures_take fun s s' read hs hstep => ?_
    obtain ⟨shelves, t⟩ := s
    obtain ⟨_, _, hget, hstep⟩ := Trial.run_bind_eq_some.1 hstep
    cases hget
    dsimp only at hstep
    cases hboth : (Trial.runBoth limit AwsAuth.readMappings
        (AccessEntry.readMappings upkeep.maxPages)).run t with
    | mk result after =>
        rw [hboth] at hstep
        cases result with
        | none => cases hstep
        | some result =>
            cases hstep
            obtain ⟨hafter, hdocument, hentries⟩ := hs.1.runBoth AwsAuth.asks_readMappings
              (AccessEntry.asks_readMappings upkeep.maxPages) hboth
            exact ⟨hsources _ _ hdocument hentries, hafter, hs.2⟩
  refine hread.bind fun read => ensures_of_fact fun hsound => ?_
  obtain ⟨mappings, hcombine, hmappings⟩ := hsound
  rw [hcombine]
  exact ensures_pure fun s hs => ⟨hmappings, hs⟩

theorem ensures_keep {mappings : Mappings} (hsound : Sound mappings) :
    Ensures limit (Ready plane mayFail Sound)
      (keepFor upkeep.lifetime .identities mappings)
      fun _ => Loaded plane mayFail Sound := by
  have hclock : Ensures limit (Ready plane mayFail Sound) (take .clock)
      fun _ => Ready plane mayFail Sound := by
    refine ensures_take fun s s' _ hs hstep => ?_
    cases hstep
    exact hs
  refine hclock.bind fun now => ensures_take fun s s' _ hs hstep => ?_
  cases hstep
  exact ⟨hs.1, hsound⟩

/-- After a refresh the snapshot is sound. -/
theorem ensures_refresh (hsources : LoadsOnly plane mayFail upkeep.maxPages Sound) :
    Ensures limit (Ready plane mayFail Sound) (refresh upkeep)
      fun _ => Loaded plane mayFail Sound := by
  -- What was looked at is kept, so if it is not stale it is sound.
  let Seen (kept : Kept Mappings) (s : Shelves × Trial) : Prop :=
    (kept.expiry ≠ .stale → Loaded plane mayFail Sound s) ∧ Ready plane mayFail Sound s
  have hlook : Ensures limit (Ready plane mayFail Sound) (take (.look .identities)) Seen := by
    refine ensures_take fun s s' kept hs hstep => ?_
    cases hstep
    exact ⟨fun hstale => ⟨hs.1, hs.2.resolve_left hstale⟩, hs⟩
  have hclock : ∀ kept, Ensures limit (Seen kept) (take .clock) fun _ => Seen kept := by
    intro kept
    refine ensures_take fun s s' now hs hstep => ?_
    cases hstep
    exact hs
  refine (hlook.bind fun kept => (hclock kept).bind fun now => ?_).holding
  by_cases hfresh : kept.expiry.isFresh now = true
  · rw [if_pos hfresh]
    refine ensures_pure fun s hs => hs.1 fun hstale => ?_
    rw [hstale] at hfresh
    cases hfresh
  · rw [if_neg hfresh]
    refine ((ensures_load hsources).of_pre fun s hs => hs.2).bind fun mappings => ?_
    exact ensures_of_fact fun hsound => ensures_keep hsound

theorem ensures_cached : Ensures limit (Loaded plane mayFail Sound) cached
    fun mappings s => Sound mappings ∧ Loaded plane mayFail Sound s := by
  have hlook : Ensures limit (Loaded plane mayFail Sound) (take (.look .identities))
      fun kept s => Sound kept.value ∧ Loaded plane mayFail Sound s := by
    refine ensures_take fun s s' kept hs hstep => ?_
    cases hstep
    exact ⟨hs.2, hs⟩
  refine (hlook.bind fun kept => ?_).holding
  exact ensures_of_fact fun hsound => ensures_pure fun s hs => ⟨hsound, hs⟩

/-- **A lookup that comes to an end is answered from sound mappings.** -/
theorem ensures_lookup (hsources : LoadsOnly plane mayFail upkeep.maxPages Sound)
    (identity : Identity) :
    Ensures limit (Ready plane mayFail Sound) (lookup upkeep identity)
      fun principals s => (∃ mappings, Sound mappings ∧ principals = mappings.behind identity) ∧
        Ready plane mayFail Sound s := by
  have hsnapshot : Ensures limit (Ready plane mayFail Sound) (snapshot upkeep)
      fun mappings s => Sound mappings ∧ Loaded plane mayFail Sound s :=
    (ensures_refresh hsources).bind fun _ => ensures_cached
  refine hsnapshot.bind fun mappings => ensures_of_fact fun hsound => ?_
  exact ensures_pure fun s hs => ⟨⟨mappings, hsound, rfl⟩, hs.ready⟩

end Identity

end ClusterAccess
