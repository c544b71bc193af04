/-
Answers prepared in advance, one queue to a sort of question.
-/
import DocScribe.Prompt.Basic

namespace DocScribe

/-- A prepared answer. -/
inductive Prepared (α : Type) where
  | give (a : α)
  | cancel
  /-- The input breaks down. -/
  | broken (message : Text)
  /-- The answer that is given when none is prepared. -/
  | usual

/-- The answers that are still to be given. -/
structure Script where
  docstrings : List (Prepared Text) := []
  argumentDocs : List (Prepared Text) := []
  argumentTypes : List (Prepared Text) := []
  reviews : List (Prepared Text) := []
  confirms : List (Prepared Bool) := []

/-- The answer that was prepared, given the usual one. -/
def Prepared.answer {α : Type} (usual : α) : Option (Prepared α) → Except Failure α
  | some (.give a) => .ok a
  | some .cancel => .error .cancelled
  | some (.broken message) => .error (.io message)
  | some .usual | none => .ok usual

/-- The prompter that goes through prepared answers. -/
def Prompter.scripted : Prompter Script where
  answer q s :=
    match q with
    | .docstring c =>
      (Prepared.answer ("Docs of " ++ c.kind.name ++ " " ++ c.name ++ ['.']) s.docstrings.head?,
        { s with docstrings := s.docstrings.tail })
    | .argumentDoc _ argument =>
      (Prepared.answer ("the " ++ argument) s.argumentDocs.head?,
        { s with argumentDocs := s.argumentDocs.tail })
    | .argumentType _ _ =>
      (Prepared.answer "str".toList s.argumentTypes.head?, { s with argumentTypes := s.argumentTypes.tail })
    | .review _ wrapped =>
      (Prepared.answer wrapped s.reviews.head?, { s with reviews := s.reviews.tail })
    | .confirm _ => (Prepared.answer true s.confirms.head?, { s with confirms := s.confirms.tail })
  announce _ s := s

end DocScribe
