import Mathlib.Data.String.Basic
import FortranInterface.Token.Scan

/-!
The tokens of a text, slice by slice. Whatever holds of a cut at the front of a text is carried through the whole
text by the equation for its slices.
-/

namespace FortranInterface.Scan

/-- What holds of no text, and of a text if it holds behind its first slice, holds of every text. -/
theorem slices_induction {motive : List Char → Prop} (nil : motive [])
    (cons : ∀ first rest, motive (rest.drop (cut first rest).2) → motive (first :: rest)) (text : List Char) :
    motive text := by
  generalize isLength : text.length = length
  induction length using Nat.strongRecOn generalizing text with
  | ind length ih =>
    cases text with
    | nil => exact nil
    | cons first rest =>
      refine cons first rest (ih (rest.drop (cut first rest).2).length ?_ _ rfl)
      rw [← isLength, List.length_drop, List.length_cons]
      omega

theorem slicesOnto_eq (done : Array Slice) (text : List Char) :
    (slicesOnto done text).toList = done.toList ++ slices text := by
  induction text using slices_induction generalizing done with
  | nil => simp [slicesOnto, slices]
  | cons first rest ih =>
    rw [slicesOnto, slices, slicesOnto, ih, ih]
    simp

@[simp]
theorem slices_nil : slices [] = [] := by
  simp [slices, slicesOnto]

theorem slices_cons (first : Char) (rest : List Char) :
    slices (first :: rest) = ⟨(cut first rest).1, first, rest.take (cut first rest).2⟩ ::
      slices (rest.drop (cut first rest).2) := by
  rw [slices, slicesOnto, slicesOnto_eq]
  simp

/-! Bytes. -/

@[simp]
theorem byteLength_append (front back : List Char) :
    byteLength (front ++ back) = byteLength front + byteLength back := by
  induction front with
  | nil => simp [byteLength]
  | cons c rest ih => simp [byteLength, ih, Nat.add_assoc]

theorem byteLength_pos (c : Char) (rest : List Char) : 0 < byteLength (c :: rest) :=
  Nat.add_pos_left c.utf8Size_pos _

theorem byteLength_eq_utf8Len (text : List Char) : byteLength text = String.utf8Len text := by
  induction text with
  | nil => rfl
  | cons c rest ih => rw [byteLength, String.utf8Len_cons, ih, Nat.add_comm]

theorem byteLength_toList (source : String) : byteLength source.toList = source.utf8ByteSize := by
  rw [byteLength_eq_utf8Len, String.utf8Len_toList]

/-! Tokens. -/

def placed (offset : Nat) : List Slice → List Token
  | [] => []
  | slice :: rest =>
    let stop := offset + byteLength slice.text
    match slice.piece with
    | .lexeme lexeme => ⟨lexeme, ⟨offset, stop⟩⟩ :: placed stop rest
    | _ => placed stop rest

theorem foldl_step (found : List Slice) (progress : Progress) :
    (found.foldl Progress.step progress).tokens.toList = progress.tokens.toList ++ placed progress.offset found := by
  induction found generalizing progress with
  | nil => simp [placed]
  | cons slice rest ih =>
    rw [List.foldl_cons, ih, placed]
    cases isPiece : slice.piece <;> simp [Progress.step, isPiece]

def tokensFrom (offset : Nat) (text : List Char) : List Token :=
  placed offset (slices text)

theorem tokens_eq (source : String) : tokens source = tokensFrom 0 source.toList := by
  rw [tokens, foldl_step]
  simp [tokensFrom]

@[simp]
theorem tokensFrom_nil (offset : Nat) : tokensFrom offset [] = [] := by
  simp [tokensFrom, placed]

theorem tokensFrom_cons (offset : Nat) (first : Char) (rest : List Char) :
    tokensFrom offset (first :: rest) =
      (match (cut first rest).1 with
        | .lexeme lexeme =>
          [⟨lexeme, ⟨offset, offset + byteLength (first :: rest.take (cut first rest).2)⟩⟩]
        | _ => []) ++
      tokensFrom (offset + byteLength (first :: rest.take (cut first rest).2)) (rest.drop (cut first rest).2) := by
  rw [tokensFrom, slices_cons, placed]
  cases isPiece : (cut first rest).1 <;> simp [Slice.text, tokensFrom]

end FortranInterface.Scan
