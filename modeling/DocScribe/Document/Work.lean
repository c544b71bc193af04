/-
Work in progress: everything that documenting reads and changes.

The deeds of a run are the questions with their answers, the announcements
and the writes with what came of them, in the order in which they happened.
-/
import DocScribe.Event
import DocScribe.FileTree.Basic
import DocScribe.Prompt.Basic

namespace DocScribe

/-- Something that was done. -/
inductive Deed where
  | asked (q : Question) (answer : Except Failure q.Answer)
  | announced (file : Path)
  /-- A refused write leaves the file as it was. -/
  | wrote (file : Path) (t : Text) (result : Except AccessFault Unit)

/-- What documenting works on. -/
structure World (σ : Type) where
  tree : FileTree
  /-- The state of the prompter. -/
  prompt : σ
  /-- The files that were announced. -/
  announced : List Path := []
  deeds : List Deed := []
  events : List Event := []

/-- Steps of work, which can fail; what was done before a failure stays done. -/
abbrev Work (σ : Type) := ExceptT Failure (StateM (World σ))

namespace Work

variable {σ : Type}

/-- Notes events down. -/
def note (events : List Event) : Work σ Unit :=
  modify fun w => { w with events := w.events ++ events }

/-- Puts a question. -/
def ask (p : Prompter σ) (q : Question) : Work σ q.Answer :=
  ExceptT.mk fun w =>
    let (answer, prompt) := p.answer q w.prompt
    (answer, { w with prompt, deeds := w.deeds ++ [.asked q answer] })

/-- Announces a file, unless it was announced before; tells whether it was
not. -/
def announce (p : Prompter σ) (file : Path) : Work σ Bool :=
  ExceptT.mk fun w =>
    if w.announced.any fun known => known.same file then (.ok false, w)
    else
      (.ok true, { w with
        prompt := p.announce file w.prompt
        announced := file :: w.announced
        deeds := w.deeds ++ [.announced file] })

/-- Reads the text of a file. -/
def read (file : Path) : Work σ Text := do
  match (← get).tree.read file with
  | .ok t => pure t
  | .error fault => throw (.fileAccess file.text fault)

/-- Writes the text of a file. -/
def write (file : Path) (t : Text) : Work σ Unit := do
  match (← get).tree.write file t with
  | .ok tree =>
    modify fun w => { w with
      tree, deeds := w.deeds ++ [.wrote file t (.ok ())], events := w.events ++ [.wrote file t.size] }
  | .error fault =>
    modify fun w => { w with deeds := w.deeds ++ [.wrote file t (.error fault)] }
    throw (.fileAccess file.text fault)

end Work
end DocScribe
