/-
Pages of a listing.

A listing that does not fit in one answer comes in pages.  A page carries the token
that asks for the next one; the last page carries none.  Some services report the
end with an empty token, which `endToken` turns into none.
-/
namespace ClusterAccess

/-- One page of a listing. -/
structure Page (α : Type) where
  items : List α
  /-- What asks for the next page. -/
  next : Option String := none
  deriving Repr, BEq

/-- The page with its items replaced. -/
def Page.map (f : α → β) (page : Page α) : Page β :=
  ⟨page.items.map f, page.next⟩

/-- The token, unless it is empty. -/
def endToken (token : Option String) : Option String :=
  token.filter (· ≠ "")

theorem endToken_of_ne {token : String} (h : token ≠ "") :
    endToken (some token) = some token := by
  simp [endToken, h]

theorem endToken_of_end {token : Option String} (h : token = none ∨ token = some "") :
    endToken token = none := by
  rcases h with rfl | rfl <;> rfl

end ClusterAccess
