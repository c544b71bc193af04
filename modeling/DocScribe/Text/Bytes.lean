/-
The UTF-8 form of texts. `ofBytes?_bytes` says that a text comes back from
its bytes, `length_bytes` that `Text.size` counts them.
-/
import DocScribe.Text.Basic

namespace DocScribe
namespace Text

/-- The bytes of the UTF-8 form of a text. -/
def bytes (t : Text) : List UInt8 := t.flatMap String.utf8EncodeChar

/-- The text that bytes are the UTF-8 form of. -/
def ofBytes? (b : List UInt8) : Option Text := b.toByteArray.utf8Decode?.map Array.toList

theorem ofBytes?_bytes (t : Text) : ofBytes? (bytes t) = some t := by
  have h : (bytes t).toByteArray = List.utf8Encode t := rfl
  simp [ofBytes?, h]

theorem length_bytes (t : Text) : (bytes t).length = size t := by
  induction t with
  | nil => rfl
  | cons c t ih =>
    have h : bytes (c :: t) = String.utf8EncodeChar c ++ bytes t := rfl
    simp [h, ih]

/-- The pieces of some bytes between the line feeds. -/
def byteLines (b : List UInt8) : List (List UInt8) :=
  match b with
  | [] => [[]]
  | x :: b =>
    if x = 10 then [] :: byteLines b
    else
      match byteLines b with
      | [] => [[x]]
      | l :: ls => (x :: l) :: ls

end Text
end DocScribe
