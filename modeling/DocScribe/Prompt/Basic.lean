/-
Prompts: the questions that are put to the user, and who answers them.

A `Prompter` is any way of answering, with a state of its own; what is said
for every prompter is said for every behaviour of a user.
-/
import DocScribe.Failure
import DocScribe.Scan.Candidate

namespace DocScribe

/-- A question to the user. -/
inductive Question where
  /-- What a construct does. -/
  | docstring (c : Candidate)
  /-- What an argument of a method is for. -/
  | argumentDoc (c : Candidate) (argument : Text)
  /-- The type of an argument of a method. -/
  | argumentType (c : Candidate) (argument : Text)
  /-- The block of a construct between the review markers, to be edited. -/
  | review (c : Candidate) (wrapped : Text)
  /-- Whether a file is to be documented at all. -/
  | confirm (file : Path)

/-- The answers that a question can have. -/
abbrev Question.Answer : Question → Type
  | .confirm _ => Bool
  | _ => Text

/-- A way of answering questions. -/
structure Prompter (σ : Type) where
  /-- The answer to a question. -/
  answer : (q : Question) → σ → Except Failure q.Answer × σ
  /-- Tells the user that a file comes next. -/
  announce : Path → σ → σ

/-- The prompter that answers with text to be filled in later. -/
def Prompter.placeholder : Prompter Unit where
  answer q s :=
    match q with
    | .docstring _ => (.ok "<docstring>".toList, s)
    | .argumentDoc _ _ => (.ok "<arg docstring>".toList, s)
    | .argumentType _ _ => (.ok "<type>".toList, s)
    | .review _ wrapped => (.ok wrapped, s)
    | .confirm _ => (.ok true, s)
  announce _ s := s

end DocScribe
