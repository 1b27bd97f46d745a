import Mathlib.Data.List.Basic
import Mathlib.Data.List.TakeWhile

/-!
# Suboptions

A suboption string is a list of suboptions between commas.  Each is a name, or a name and
a value after an equals sign.
-/

namespace QnxVirtio
namespace Foundation

/-- The suboptions of a text.  Nothing after the last comma is no suboption. -/
def suboptions (text : List Char) : List (List Char) :=
  if (text.splitOn ',').getLast? = some [] then
    (text.splitOn ',').dropLast
  else
    text.splitOn ','

/-- The value that a suboption gives for a name. -/
def valueFor (name piece : List Char) : Option (List Char) :=
  (name ++ ['=']).isPrefixOf? piece

/-- What `getsubopt` returns: the index of the name among the tokens or -1, the text after
the suboption, and the value. -/
structure Subopt where
  index : Int
  rest : List Char
  value : Option (List Char)
deriving DecidableEq

/-- The suboption at the start of a text. -/
def firstSubopt (text : List Char) : List Char :=
  text.takeWhile (· != ',')

/-- The text after the first suboption and its comma. -/
def restSubopts (text : List Char) : List Char :=
  (text.dropWhile (· != ',')).drop 1

def suboptName (piece : List Char) : List Char :=
  piece.takeWhile (· != '=')

/-- The text after the equals sign, where there is one. -/
def suboptValue (piece : List Char) : Option (List Char) :=
  match piece.dropWhile (· != '=') with
  | [] => none
  | _ :: value => some value

/-- The index of a name among the tokens, or -1. -/
def tokenIndex (tokens : List (List Char)) (name : List Char) : Int :=
  match tokens.idxOf? name with
  | some i => i
  | none => -1

/-- `getsubopt(&text, tokens, &value)`. -/
def getsubopt (text : List Char) (tokens : List (List Char)) : Subopt :=
  { index := tokenIndex tokens (suboptName (firstSubopt text))
    rest := restSubopts text
    value := suboptValue (firstSubopt text) }

/-!
## Cutting at a separator
-/

theorem dropWhile_bne (c : Char) (text : List Char) :
    text.dropWhile (· != c) = [] ∨ exists rest, text.dropWhile (· != c) = c :: rest := by
  cases h : text.dropWhile (· != c) with
  | nil => exact Or.inl rfl
  | cons d rest =>
      right
      exists rest
      have hd : (d != c) = false := by
        have := List.head?_dropWhile_not (· != c) text
        simpa [h] using this
      rw [bne_eq_false_iff_eq.mp hd]

theorem not_mem_takeWhile_bne (c : Char) (text : List Char) :
    c ∉ text.takeWhile (· != c) := by
  intro hmem
  simpa using List.mem_takeWhile_imp hmem

theorem takeWhile_bne_append {c : Char} {before : List Char} (h : c ∉ before)
    (after : List Char) : (before ++ c :: after).takeWhile (· != c) = before := by
  rw [List.takeWhile_append_of_pos]
  · simp
  · intro d hd
    have hne : d ≠ c := by
      rintro rfl
      exact h hd
    simpa using hne

theorem dropWhile_bne_append {c : Char} {before : List Char} (h : c ∉ before)
    (after : List Char) : (before ++ c :: after).dropWhile (· != c) = c :: after := by
  rw [List.dropWhile_append_of_pos]
  · simp
  · intro d hd
    have hne : d ≠ c := by
      rintro rfl
      exact h hd
    simpa using hne

/-!
## The pieces of a text
-/

@[simp] theorem suboptions_nil : suboptions [] = [] := by
  simp [suboptions]

theorem restSubopts_length {text : List Char} (h : text ≠ []) :
    (restSubopts text).length < text.length := by
  have hpos : 0 < text.length := List.length_pos_iff.mpr h
  have hle : (text.dropWhile (· != ',')).length <= text.length :=
    (List.dropWhile_sublist _).length_le
  unfold restSubopts
  rw [List.length_drop]
  omega

theorem suboptions_cons {text : List Char} (h : text ≠ []) :
    suboptions text = firstSubopt text :: suboptions (restSubopts text) := by
  have hcut : firstSubopt text ++ text.dropWhile (· != ',') = text :=
    List.takeWhile_append_dropWhile
  have hfirst : ',' ∉ firstSubopt text := not_mem_takeWhile_bne ',' text
  rcases dropWhile_bne ',' text with hend | ⟨rest, hrest⟩
  · -- the text is the last suboption
    rw [hend, List.append_nil] at hcut
    have hsplit : text.splitOn ',' = [text] :=
      List.splitOn_eq_singleton (hcut ▸ hfirst)
    have hno : restSubopts text = [] := by
      simp [restSubopts, hend]
    rw [hno, suboptions_nil, hcut]
    simp [suboptions, hsplit, h]
  · have hrestSubopts : restSubopts text = rest := by
      simp [restSubopts, hrest]
    have hsplit : text.splitOn ',' = firstSubopt text :: rest.splitOn ',' := by
      rw [hrest] at hcut
      calc text.splitOn ','
        _ = (firstSubopt text ++ ',' :: rest).splitOn ',' := by rw [hcut]
        _ = firstSubopt text :: rest.splitOn ',' :=
            List.splitOn_append_cons_self_of_not_mem hfirst rest
    have hne : rest.splitOn ',' ≠ [] := List.splitOn_ne_nil ',' rest
    rw [hrestSubopts]
    unfold suboptions
    rw [hsplit, List.getLast?_cons_of_ne_nil hne, List.dropLast_cons_of_ne_nil hne]
    split
    · rfl
    · rfl

theorem suboptName_append {name : List Char} (h : '=' ∉ name) (value : List Char) :
    suboptName (name ++ '=' :: value) = name :=
  takeWhile_bne_append h value

theorem suboptValue_append {name : List Char} (h : '=' ∉ name) (value : List Char) :
    suboptValue (name ++ '=' :: value) = some value := by
  rw [suboptValue, dropWhile_bne_append h]

theorem eq_append_of_suboptValue {piece value : List Char}
    (h : suboptValue piece = some value) :
    piece = suboptName piece ++ '=' :: value := by
  have hcut : suboptName piece ++ piece.dropWhile (· != '=') = piece :=
    List.takeWhile_append_dropWhile
  unfold suboptValue at h
  rcases dropWhile_bne '=' piece with hend | ⟨rest, hrest⟩
  · rw [hend] at h
    cases h
  · rw [hrest] at h hcut
    cases h
    exact hcut.symm

theorem valueFor_eq_some_iff {name piece value : List Char} :
    valueFor name piece = some value <-> piece = name ++ '=' :: value := by
  rw [valueFor, List.isPrefixOf?_eq_some_iff_append_eq, List.append_assoc,
    List.singleton_append, eq_comm]

end Foundation
end QnxVirtio
