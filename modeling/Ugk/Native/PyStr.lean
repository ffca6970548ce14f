import Mathlib.Data.List.Basic
import Ugk.ForStd.Json

/-!
# Python strings, lone surrogates included

A Python `str` is a sequence of code points, and a surrogate code point may stand in it alone.  The
stores and hashes of the package only ever see text; the values that arrive from outside, through
`json.loads` or an API, can be any string.
-/

namespace Ugk

/-- A code point: a character or a lone surrogate. -/
inductive CodePoint where
  | char (c : Char)
  | surrogate (n : Fin 0x800)
deriving DecidableEq

/-- A Python `str`. -/
abbrev PyStr := List CodePoint

namespace PyStr

/-- A string without lone surrogates. -/
def lit (s : String) : PyStr := s.toList.map .char

/-- The characters of a string, if it has no lone surrogate. -/
def chars : PyStr → Option (List Char)
  | [] => some []
  | .char c :: rest => (chars rest).map (c :: ·)
  | .surrogate _ :: _ => none

/-- The text of a string, if it has no lone surrogate. -/
def text? (s : PyStr) : Option String := (chars s).map String.ofList

theorem chars_map_char (cs : List Char) : chars (cs.map .char) = some cs := by
  induction cs with
  | nil => rfl
  | cons c cs ih => rw [List.map_cons, chars, ih, Option.map_some]

theorem chars_eq_some {s : PyStr} {cs : List Char} (h : chars s = some cs) :
    s = cs.map .char := by
  induction s generalizing cs with
  | nil =>
    cases h
    rfl
  | cons p s ih =>
    cases p with
    | char c =>
      obtain ⟨cs', hcs', rfl⟩ := Option.map_eq_some_iff.mp h
      rw [ih hcs', List.map_cons]
    | surrogate n => exact nomatch h

@[simp] theorem text?_lit (s : String) : text? (lit s) = some s := by
  rw [text?, lit, chars_map_char, Option.map_some, String.ofList_toList]

theorem text?_eq_some {s : PyStr} {t : String} : text? s = some t ↔ s = lit t := by
  constructor
  · intro h
    obtain ⟨cs, hcs, rfl⟩ := Option.map_eq_some_iff.mp h
    rw [lit, String.toList_ofList]
    exact chars_eq_some hcs
  · rintro rfl
    exact text?_lit t

theorem lit_injective : Function.Injective lit := by
  intro s t h
  have htext := congrArg text? h
  rw [text?_lit, text?_lit] at htext
  exact Option.some.inj htext

@[simp] theorem lit_inj {s t : String} : lit s = lit t ↔ s = t := lit_injective.eq_iff

@[simp] theorem lit_beq (s t : String) : (lit s == lit t) = (s == t) := by
  rw [Bool.eq_iff_iff, beq_iff_eq, beq_iff_eq, lit_inj]

end PyStr

end Ugk
