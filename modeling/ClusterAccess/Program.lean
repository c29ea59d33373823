/-
Programs that make calls.

What the library does in the cluster and in the cloud is a program: a tree that makes a
call, goes on with the reply, and ends with a value.  Nothing in a program says how a
call is carried out, so the same program runs against a store in memory, against an
API, next to other programs that make calls in between, or with any of its calls
failing.

A loop over the pages of a listing is the one thing that need not end.  It is given a
number of pages it may ask for, and a program that would ask for more is `unfinished`,
which is no outcome at all.
-/
import ClusterAccess.Fault
import ClusterAccess.Page

namespace ClusterAccess

/-- A program that makes calls and ends with a value. -/
inductive Program (Op : Type) (Reply : Op → Type) (α : Type) where
  | done (value : α)
  | call (op : Op) (next : Reply op → Program Op Reply α)
  /-- The program was stopped in an endless listing. -/
  | unfinished

namespace Program

variable {Op : Type} {Reply : Op → Type} {α β : Type}

/-- Goes on with the value of a program. -/
def bind (p : Program Op Reply α) (f : α → Program Op Reply β) : Program Op Reply β :=
  match p with
  | .done value => f value
  | .call op next => .call op fun reply => (next reply).bind f
  | .unfinished => .unfinished

instance : Monad (Program Op Reply) where
  pure := .done
  bind := bind

@[simp] theorem call_bind (op : Op) (next : Reply op → Program Op Reply α)
    (f : α → Program Op Reply β) :
    (Program.call op next >>= f) = .call op fun reply => next reply >>= f := rfl

@[simp] theorem unfinished_bind (f : α → Program Op Reply β) :
    ((Program.unfinished : Program Op Reply α) >>= f) = .unfinished := rfl

/-- Ending with the value changes nothing. -/
theorem bind_done (p : Program Op Reply α) : (p >>= .done) = p := by
  induction p with
  | done value => rfl
  | call op next ih => simp only [call_bind, ih]
  | unfinished => rfl

/-- It does not matter how three programs in a row are grouped. -/
theorem bind_assoc {γ : Type} (p : Program Op Reply α) (f : α → Program Op Reply β)
    (g : β → Program Op Reply γ) : (p >>= f >>= g) = p >>= fun value => f value >>= g := by
  induction p with
  | done value => rfl
  | call op next ih => simp only [call_bind, ih]
  | unfinished => rfl

/-- Runs a program, with every call carried out by an action that may stop the program.  A program
that is not finished stops too. -/
def run {m : Type → Type} [Monad m] (action : (op : Op) → OptionT m (Reply op)) :
    Program Op Reply α → OptionT m α
  | .done value => pure value
  | .call op next => action op >>= fun reply => (next reply).run action
  | .unfinished => failure

/-- The program as part of one that can make other calls besides. -/
def embed {Wide : Type} {WideReply : Wide → Type} (inject : Op → Wide)
    (same : (op : Op) → WideReply (inject op) → Reply op) :
    Program Op Reply α → Program Wide WideReply α
  | .done value => .done value
  | .call op next => .call (inject op) fun reply => (next (same op reply)).embed inject same
  | .unfinished => .unfinished

end Program

/-! ### Programs that can fail -/

/-- An outcome as the end of a program. -/
def ofOutcome {m : Type → Type} [Monad m] (outcome : Outcome α) : ExceptT Fault m α :=
  ExceptT.mk (pure outcome)

/-- The outcome of a program as its value, so that a fault does not end what follows. -/
def attempt {m : Type → Type} [Monad m] (p : ExceptT Fault m α) : ExceptT Fault m (Outcome α) :=
  ExceptT.mk (p.run >>= fun outcome => pure (.ok outcome))

/-- The lists that an action gives for each member, one after another. -/
def gather {m : Type → Type} [Monad m] (action : α → m (List β)) : List α → m (List β)
  | [] => pure []
  | a :: rest => do
    let head ← action a
    let tail ← gather action rest
    pure (head ++ tail)

/-- The items of all the pages of a listing, each page asked for with the token of the one before.
At most `pages` pages are asked for. -/
def collectPages {Op : Type} {Reply : Op → Type}
    (fetch : Option String → ExceptT Fault (Program Op Reply) (Page α)) :
    Nat → Option String → ExceptT Fault (Program Op Reply) (List α)
  | 0, _ => ExceptT.mk .unfinished
  | pages + 1, token => do
    let page ← fetch token
    match page.next with
    | none => pure page.items
    | some next =>
      let rest ← collectPages fetch pages (some next)
      pure (page.items ++ rest)

end ClusterAccess
