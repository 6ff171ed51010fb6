import CallGate.Bytes

/-!
# Texts as byte strings

Positions in error messages about texts count the bytes of the text's UTF-8 form.
-/

namespace CallGate.Text

/-- The UTF-8 form of a text. -/
def utf8 (text : List Char) : Bytes :=
  text.flatMap String.utf8EncodeChar

@[simp]
theorem utf8_nil : utf8 [] = [] := rfl

@[simp]
theorem utf8_cons (c : Char) (text : List Char) :
    utf8 (c :: text) = String.utf8EncodeChar c ++ utf8 text := rfl

/-- The bytes of two texts stand one after the other. -/
@[simp]
theorem utf8_append (first second : List Char) :
    utf8 (first ++ second) = utf8 first ++ utf8 second :=
  List.flatMap_append

end CallGate.Text
