import Ugk.ForStd.JsonTree
import Mathlib.Data.List.TakeWhile
import Mathlib.Logic.Function.Basic
import Mathlib.Tactic.IntervalCases
import Mathlib.Tactic.FinCases

/-!
# The JSON parser reads a printed document back

The parser of `Ugk.ForStd.Json` is run on the text of a document, followed by any input that
cannot prolong a number.  It returns the document and that input.

## Key results

- `Json.parseValue_render`: one value, with enough fuel
- `Json.parse_render`: a whole text
- `Json.render_injective`: the text of a document determines it
- `Json.le_of_mem_render`: it has no control characters
-/

namespace Json

/-! ## Number tokens -/

/-- The input after a value cannot prolong a number token. -/
def Follow : List Char → Prop
  | [] => True
  | c :: _ => isNumChar c = false

private theorem takeWhile_append_follow {tok rest : List Char}
    (htok : tok.all isNumChar = true) (hrest : Follow rest) :
    (tok ++ rest).takeWhile isNumChar = tok ∧ (tok ++ rest).dropWhile isNumChar = rest := by
  induction tok with
  | nil =>
    cases rest with
    | nil => simp
    | cons c r => simp [Follow] at hrest; simp [hrest]
  | cons c cs ih =>
    simp only [List.all_cons, Bool.and_eq_true] at htok
    have ⟨h1, h2⟩ := ih htok.2
    simp [htok.1, h1, h2]

private theorem isNumChar_of_isDigit {c : Char} (h : c.isDigit = true) : isNumChar c = true := by
  simp [isNumChar, h]

private theorem all_isDigit_toDigits (n : Nat) : (Nat.toDigits 10 n).all Char.isDigit = true := by
  rw [List.all_eq_true]
  intro c hc
  exact Nat.isDigit_of_mem_toDigits (by decide) (by decide) hc

private theorem digitChar_ne_zero {n : Nat} (hpos : 0 < n) (hlt : n < 10) :
    Nat.digitChar n ≠ '0' := by
  interval_cases n <;> decide

/-- A positive number is written without a leading zero. -/
private theorem head_toDigits (n : Nat) (hpos : 0 < n) :
    ∃ c cs, Nat.toDigits 10 n = c :: cs ∧ c ≠ '0' := by
  induction n using Nat.strongRecOn with
  | ind n ih =>
    by_cases hlt : n < 10
    · exact ⟨Nat.digitChar n, [], Nat.toDigits_of_lt_base hlt, digitChar_ne_zero hpos hlt⟩
    · obtain ⟨c, cs, hcs, hne⟩ := ih (n / 10) (by omega) (by omega)
      refine ⟨c, cs ++ [Nat.digitChar (n % 10)], ?_, hne⟩
      rw [Nat.toDigits_of_base_le (by decide) (by omega), hcs]
      rfl

private theorem isIntPart_toDigits (n : Nat) : isIntPart (Nat.toDigits 10 n) = true := by
  by_cases h0 : n = 0
  · subst h0; rfl
  · obtain ⟨c, cs, hcs, hne⟩ := head_toDigits n (by omega)
    have hall := all_isDigit_toDigits n
    rw [hcs] at hall ⊢
    unfold isIntPart
    split
    · contradiction
    · rfl
    · rename_i heq
      simp only [List.cons.injEq] at heq
      obtain ⟨rfl, rfl⟩ := heq
      simp [hne, hall]

private theorem toDigits_ne_minus (n : Nat) (cs : List Char) : Nat.toDigits 10 n ≠ '-' :: cs := by
  intro h
  have hall := all_isDigit_toDigits n
  rw [h] at hall
  simp at hall

/-- An integer's text is an integer token. -/
theorem isIntLit_intText (n : Int) : isIntLit (intText n) = true := by
  cases n with
  | ofNat n =>
    simp only [intText]
    unfold isIntLit
    split
    · rename_i cs heq
      exact absurd heq (toDigits_ne_minus n cs)
    · exact isIntPart_toDigits n
  | negSucc n => simpa [intText, isIntLit] using isIntPart_toDigits (n + 1)

/-- An integer's text denotes it. -/
theorem intOfLit_intText (n : Int) : intOfLit (intText n) = n := by
  cases n with
  | ofNat n =>
    simp only [intText]
    unfold intOfLit
    split
    · rename_i cs heq
      exact absurd heq (toDigits_ne_minus n cs)
    · simp [Nat.ofDigitChars_ten_toDigits]
  | negSucc n =>
    simp only [intText, intOfLit, Nat.ofDigitChars_ten_toDigits]
    omega

theorem all_isNumChar_intText (n : Int) : (intText n).all isNumChar = true := by
  have hdigits : ∀ m, (Nat.toDigits 10 m).all isNumChar = true := by
    intro m
    have hall := all_isDigit_toDigits m
    rw [List.all_eq_true] at hall ⊢
    exact fun c hc => isNumChar_of_isDigit (hall c hc)
  cases n with
  | ofNat n => exact hdigits n
  | negSucc n => simp [intText, hdigits, isNumChar]

private theorem parseNumber_int (n : Int) {rest : List Char} (hrest : Follow rest) :
    parseNumber (intText n ++ rest) = some (.int n, rest) := by
  have ⟨h1, h2⟩ := takeWhile_append_follow (all_isNumChar_intText n) hrest
  simp [parseNumber, h1, h2, isIntLit_intText, intOfLit_intText]

private theorem takeWhile_of_all {p : Char → Bool} {cs : List Char} (h : cs.all p = true) :
    cs.takeWhile p = cs ∧ cs.dropWhile p = [] := by
  rw [List.all_eq_true] at h
  constructor
  · exact List.takeWhile_eq_self_iff.mpr h
  · exact List.dropWhile_eq_nil_iff.mpr h

private theorem isIntPart_all {cs : List Char} (h : isIntPart cs = true) :
    cs.all Char.isDigit = true := by
  unfold isIntPart at h
  split at h
  · cases h
  · rfl
  · simp only [Bool.and_eq_true] at h; exact h.2

/-- No token is both an integer and a float. -/
private theorem isIntLit_of_isFloatLit {cs : List Char} (h : isFloatLit cs = true) :
    isIntLit cs = false := by
  have hpart : ∀ ds, isUnsignedFloat ds = true → isIntPart ds = false := by
    intro ds hf
    cases hi : isIntPart ds with
    | false => rfl
    | true =>
      have ⟨_, hdrop⟩ := takeWhile_of_all (isIntPart_all hi)
      simp [isUnsignedFloat, hdrop, isFloatTail] at hf
  simp only [isFloatLit, Bool.and_eq_true] at h
  have hf := h.2
  unfold isIntLit
  split
  · exact hpart _ hf
  · rename_i hne
    split at hf
    · exact absurd rfl (hne _)
    · exact hpart _ hf

private theorem parseNumber_float (x : FloatLit) {rest : List Char} (hrest : Follow rest) :
    parseNumber (x.text ++ rest) = some (.float x, rest) := by
  have hall : x.text.all isNumChar = true := by
    have := x.wf
    simp only [isFloatLit, Bool.and_eq_true] at this
    exact this.1
  have ⟨h1, h2⟩ := takeWhile_append_follow hall hrest
  have hint := isIntLit_of_isFloatLit x.wf
  simp [parseNumber, h1, h2, hint, x.wf]

/-! ## String literals -/

theorem hexVal_digitChar {n : Nat} (h : n < 16) : hexVal (Nat.digitChar n) = some n := by
  interval_cases n <;> decide

private theorem hex4_hexDigits {n : Nat} (h : n < 0x10000) (rest : List Char) :
    hex4 (hexDigits n ++ rest) = some (n, rest) := by
  have h1 := hexVal_digitChar (Nat.mod_lt (n / 4096) (by decide : 0 < 16))
  have h2 := hexVal_digitChar (Nat.mod_lt (n / 256) (by decide : 0 < 16))
  have h3 := hexVal_digitChar (Nat.mod_lt (n / 16) (by decide : 0 < 16))
  have h4 := hexVal_digitChar (Nat.mod_lt n (by decide : 0 < 16))
  have hsum : 4096 * (n / 4096 % 16) + 256 * (n / 256 % 16) + 16 * (n / 16 % 16) + n % 16 = n := by
    omega
  simp [hexDigits, hex4, h1, h2, h3, h4, hsum]

private theorem parseUnicode_basic (c : Char) (h : c.toNat < 0x10000) (rest : List Char) :
    parseUnicode (hexDigits c.toNat ++ rest) = some (c, rest) := by
  -- a character of the basic plane is not a surrogate
  have hvalid : ¬(0xd800 ≤ c.toNat ∧ c.toNat < 0xe000) := by
    have hv := c.valid
    simp only [UInt32.isValidChar, Nat.isValidChar] at hv
    have hto : c.val.toNat = c.toNat := rfl
    omega
  unfold parseUnicode
  rw [hex4_hexDigits h]
  simp only
  rw [if_neg (by omega), if_neg (by omega), Char.ofNat_toNat]

private theorem parseUnicode_pair (c : Char) (hi lo : Nat) (rest : List Char)
    (hhi : 0xd800 ≤ hi ∧ hi < 0xdc00) (hlo : 0xdc00 ≤ lo ∧ lo < 0xe000)
    (hcode : 0x10000 + (hi - 0xd800) * 0x400 + (lo - 0xdc00) = c.toNat) :
    parseUnicode (hexDigits hi ++ ('\\' :: 'u' :: (hexDigits lo ++ rest))) = some (c, rest) := by
  unfold parseUnicode
  rw [hex4_hexDigits (by omega)]
  simp only
  rw [if_pos hhi, hex4_hexDigits (by omega)]
  simp only
  rw [if_pos hlo, hcode, Char.ofNat_toNat]

/-- A quoted character is read back. -/
private theorem parseStrChar_quoteChar (ascii : Bool) (c : Char) (rest : List Char) :
    parseStrChar (quoteChar ascii c ++ rest) = some (c, rest) := by
  unfold quoteChar
  split
  · subst_vars; rfl
  split
  · subst_vars; rfl
  split
  · subst_vars; rfl
  split
  · subst_vars; rfl
  split
  · subst_vars; rfl
  split
  · subst_vars; rfl
  split
  · subst_vars; rfl
  split
  · split
    · rename_i hbasic
      simpa [parseStrChar] using parseUnicode_basic c hbasic rest
    · rename_i hpair
      have hmax : c.toNat < 0x110000 := by
        have hv := c.valid
        simp only [UInt32.isValidChar, Nat.isValidChar] at hv
        have hto : c.val.toNat = c.toNat := rfl
        omega
      simpa [parseStrChar] using parseUnicode_pair c _ _ rest (by omega) (by omega) (by omega)
  · rename_i _ hslash _ _ _ _ _ hplain
    have hge : ¬c.toNat < 0x20 := fun hlt => hplain (Or.inl hlt)
    simp [parseStrChar, hslash, hge]

/-- No quoted character opens with the closing quote. -/
private theorem quoteChar_head (ascii : Bool) (c : Char) :
    ∃ d ds, quoteChar ascii c = d :: ds ∧ d ≠ '"' := by
  unfold quoteChar
  repeat' split
  all_goals first
    | exact ⟨_, _, rfl, by decide⟩
    | exact ⟨_, _, rfl, by assumption⟩

private theorem parseStr_cons {d : Char} {ds : List Char} (n : Nat) (hd : d ≠ '"') :
    parseStr (n + 1) (d :: ds) =
      (parseStrChar (d :: ds)).bind fun p => (parseStr n p.2).bind fun q =>
        some (p.1 :: q.1, q.2) := by
  rw [parseStr]
  · rfl
  · intro r h
    simp only [List.cons.injEq] at h
    exact hd h.1

/-- A string literal's body is read back. -/
theorem parseStr_quoteBody (ascii : Bool) (cs : List Char) (n : Nat) (rest : List Char)
    (hn : cs.length < n) : parseStr n (quoteBody ascii cs ++ rest) = some (cs, rest) := by
  induction cs generalizing n with
  | nil =>
    cases n with
    | zero => simp at hn
    | succ n => rfl
  | cons c cs ih =>
    cases n with
    | zero => simp at hn
    | succ n =>
      have hn' : cs.length < n := by simpa using hn
      obtain ⟨d, ds, hquote, hd⟩ := quoteChar_head ascii c
      have hchar := parseStrChar_quoteChar ascii c (quoteBody ascii cs ++ rest)
      rw [hquote] at hchar
      simp only [quoteBody, hquote, List.append_assoc, List.cons_append] at hchar ⊢
      rw [parseStr_cons n hd, hchar]
      simp [ih n hn']

private theorem length_quoteChar_pos (ascii : Bool) (c : Char) :
    0 < (quoteChar ascii c).length := by
  obtain ⟨d, ds, h, _⟩ := quoteChar_head ascii c
  simp [h]

theorem length_quoteBody (ascii : Bool) (cs : List Char) :
    cs.length < (quoteBody ascii cs).length := by
  induction cs with
  | nil => simp [quoteBody]
  | cons c cs ih =>
    have := length_quoteChar_pos ascii c
    simp only [quoteBody, List.length_append, List.length_cons]
    omega

/-! ## Values -/

theorem skipWs_of_not_isWs {c : Char} {cs : List Char} (h : isWs c = false) :
    skipWs (c :: cs) = c :: cs := by
  simp [skipWs, h]

private theorem isWs_of_isNumChar {c : Char} (h : isNumChar c = true) : isWs c = false := by
  cases hw : isWs c with
  | false => rfl
  | true =>
    simp only [isWs, Bool.or_eq_true, beq_iff_eq] at hw
    obtain ((rfl | rfl) | rfl) | rfl := hw <;> exact absurd h (by decide)

/-- The characters a printed value can open with. -/
private def IsOpen (c : Char) : Prop :=
  isNumChar c = true ∨ c ∈ ['n', 't', 'f', 'N', 'I', '"', '[', '{']

private theorem isWs_of_isOpen {c : Char} (h : IsOpen c) : isWs c = false := by
  rcases h with h | h
  · exact isWs_of_isNumChar h
  · fin_cases h <;> rfl

private theorem isOpen_ne {c : Char} (h : IsOpen c) : c ≠ ']' ∧ c ≠ '}' := by
  rcases h with h | h
  · constructor <;> rintro rfl <;> exact absurd h (by decide)
  · fin_cases h <;> decide

private theorem numToken_head {tok : List Char} (hne : tok ≠ []) (hall : tok.all isNumChar = true) :
    ∃ c cs, tok = c :: cs ∧ isNumChar c = true := by
  cases tok with
  | nil => exact absurd rfl hne
  | cons c cs =>
    simp only [List.all_cons, Bool.and_eq_true] at hall
    exact ⟨c, cs, rfl, hall.1⟩

private theorem intText_head (n : Int) : ∃ c cs, intText n = c :: cs ∧ isNumChar c = true := by
  refine numToken_head ?_ (all_isNumChar_intText n)
  intro h
  have := isIntLit_intText n
  rw [h] at this
  cases this

private theorem floatLit_head (x : FloatLit) : ∃ c cs, x.text = c :: cs ∧ isNumChar c = true := by
  have hwf := x.wf
  simp only [isFloatLit, Bool.and_eq_true] at hwf
  refine numToken_head ?_ hwf.1
  intro h
  have h2 := hwf.2
  rw [h] at h2
  simp [isUnsignedFloat, isIntPart] at h2

private theorem render_head (st : Style) (j : Json) :
    ∃ c cs, render st j = c :: cs ∧ IsOpen c := by
  cases j with
  | null => exact ⟨_, _, rfl, by right; decide⟩
  | bool b => cases b <;> exact ⟨_, _, rfl, by right; decide⟩
  | int n => obtain ⟨c, cs, h, hc⟩ := intText_head n; exact ⟨c, cs, h, Or.inl hc⟩
  | float x => obtain ⟨c, cs, h, hc⟩ := floatLit_head x; exact ⟨c, cs, h, Or.inl hc⟩
  | nonFinite k =>
    cases k
    · exact ⟨_, _, rfl, by right; decide⟩
    · exact ⟨_, _, rfl, by right; decide⟩
    · exact ⟨_, _, rfl, by left; decide⟩
  | str s => exact ⟨_, _, rfl, by right; decide⟩
  | arr xs => exact ⟨_, _, rfl, by right; decide⟩
  | obj kvs => exact ⟨_, _, rfl, by right; decide⟩

/-- A printed value opens with no blank and no closing bracket. -/
theorem render_head_plain (st : Style) (j : Json) :
    ∃ c cs, render st j = c :: cs ∧ isWs c = false ∧ c ≠ ']' ∧ c ≠ '}' := by
  obtain ⟨c, cs, h, hopen⟩ := render_head st j
  exact ⟨c, cs, h, isWs_of_isOpen hopen, isOpen_ne hopen⟩

private theorem length_render_pos (st : Style) (j : Json) : 0 < (render st j).length := by
  obtain ⟨c, cs, h, _⟩ := render_head st j
  simp [h]

private theorem itemSep_cases (st : Style) : st.itemSep = [',', ' '] ∨ st.itemSep = [','] := by
  unfold Style.itemSep
  split
  · exact Or.inl rfl
  · exact Or.inr rfl

private theorem keySep_cases (st : Style) : st.keySep = [':', ' '] ∨ st.keySep = [':'] := by
  unfold Style.keySep
  split
  · exact Or.inl rfl
  · exact Or.inr rfl

private theorem length_itemSep_pos (st : Style) : 0 < st.itemSep.length := by
  rcases itemSep_cases st with h | h <;> simp [h]

theorem parseValue_blank {n : Nat} {cs : List Char} :
    parseValue n (' ' :: cs) = parseValue n cs := by
  cases n with
  | zero => rfl
  | succ n => simp only [parseValue]; rfl

private theorem parseItems_blank {n : Nat} {cs : List Char} :
    parseItems n (' ' :: cs) = parseItems n cs := by
  cases n with
  | zero => rfl
  | succ n => simp only [parseItems, parseValue_blank]

private theorem parseMembers_blank {n : Nat} {cs : List Char} :
    parseMembers n (' ' :: cs) = parseMembers n cs := by
  cases n with
  | zero => rfl
  | succ n => simp only [parseMembers]; rfl

/-- A number value, in the dispatch of `parseValue`. -/
private theorem parseValue_number {c : Char} {cs : List Char} (n : Nat)
    (hc : isNumChar c = true) :
    parseValue (n + 1) (c :: cs) = parseAtom (c :: cs) := by
  rw [parseValue, skipWs_of_not_isWs (isWs_of_isNumChar hc)]
  split
  · rename_i heq; simp only [List.cons.injEq] at heq
    rw [heq.1] at hc; exact absurd hc (by decide)
  · rename_i heq; simp only [List.cons.injEq] at heq
    rw [heq.1] at hc; exact absurd hc (by decide)
  · rename_i heq; simp only [List.cons.injEq] at heq
    rw [heq.1] at hc; exact absurd hc (by decide)
  · rfl

private theorem parseValue_int (n : Nat) (i : Int) {rest : List Char} (hrest : Follow rest) :
    parseValue (n + 1) (intText i ++ rest) = some (.int i, rest) := by
  have hnum := parseNumber_int i hrest
  obtain ⟨c, cs, htext, hc⟩ := intText_head i
  rw [htext, List.cons_append] at hnum ⊢
  rw [parseValue_number n hc, parseAtom, hnum]

private theorem parseValue_float (n : Nat) (x : FloatLit) {rest : List Char}
    (hrest : Follow rest) :
    parseValue (n + 1) (x.text ++ rest) = some (.float x, rest) := by
  have hnum := parseNumber_float x hrest
  obtain ⟨c, cs, htext, hc⟩ := floatLit_head x
  rw [htext, List.cons_append] at hnum ⊢
  rw [parseValue_number n hc, parseAtom, hnum]

private theorem follow_renderMore (st : Style) (xs : List Json) (rest : List Char) :
    Follow (renderMore st xs ++ rest) := by
  cases xs with
  | nil => simp [renderMore, Follow, isNumChar]
  | cons x xs =>
    rcases itemSep_cases st with h | h <;> simp [renderMore, h, Follow, isNumChar]

private theorem follow_renderMoreMembers (st : Style) (ms : List (String × Json))
    (rest : List Char) : Follow (renderMoreMembers st ms ++ rest) := by
  cases ms with
  | nil => simp [renderMoreMembers, Follow, isNumChar]
  | cons m ms =>
    rcases itemSep_cases st with h | h <;> simp [renderMoreMembers, h, Follow, isNumChar]

mutual

/-- One printed value is read back, with fuel twice its length. -/
theorem parseValue_render (st : Style) (j : Json) (n : Nat) (rest : List Char)
    (hn : 2 * (render st j).length ≤ n) (hrest : Follow rest) :
    parseValue n (render st j ++ rest) = some (j, rest) := by
  have hpos := length_render_pos st j
  obtain ⟨n, rfl⟩ : ∃ m, n = m + 1 := ⟨n - 1, by omega⟩
  cases j with
  | null => rfl
  | bool b => cases b <;> rfl
  | int i => exact parseValue_int n i hrest
  | float x => exact parseValue_float n x hrest
  | nonFinite k => cases k <;> rfl
  | str s =>
    have hlen := length_quoteBody st.ascii s.toList
    simp only [render, quote, List.length_cons] at hn
    simp only [render, quote, List.cons_append, parseValue]
    rw [skipWs_of_not_isWs (by decide)]
    simp only
    rw [parseStr_quoteBody _ _ _ _ (by omega)]
    simp
  | arr xs =>
    simp only [render, List.length_cons] at hn
    simp only [render, List.cons_append, parseValue]
    rw [skipWs_of_not_isWs (by decide)]
    simp only
    cases xs with
    | nil => rfl
    | cons x xs =>
      have hitems := parseItems_renderItems st x xs n rest (by omega)
      obtain ⟨c, cs, hx, hopen⟩ := render_head st x
      have ⟨hne, _⟩ := isOpen_ne hopen
      simp only [renderItems, hx, List.cons_append] at hitems ⊢
      rw [skipWs_of_not_isWs (isWs_of_isOpen hopen), hitems]
      split
      · rename_i heq; simp only [List.cons.injEq] at heq; exact absurd heq.1 hne
      · rfl
  | obj kvs =>
    simp only [render, List.length_cons] at hn
    simp only [render, List.cons_append, parseValue]
    rw [skipWs_of_not_isWs (by decide)]
    simp only
    cases kvs with
    | nil => rfl
    | cons m ms =>
      have hmembers := parseMembers_renderMembers st m ms n rest (by omega)
      obtain ⟨k, v⟩ := m
      simp only [renderMembers, renderMember, quote, List.cons_append] at hmembers ⊢
      rw [skipWs_of_not_isWs (by decide), hmembers]
      rfl
termination_by n

/-- Printed items are read back. -/
theorem parseItems_renderItems (st : Style) (x : Json) (xs : List Json) (n : Nat)
    (rest : List Char) (hn : 2 * (renderItems st (x :: xs)).length + 1 ≤ n) :
    parseItems n (renderItems st (x :: xs) ++ rest) = some (x :: xs, rest) := by
  simp only [renderItems, List.length_append] at hn
  have hpos := length_render_pos st x
  obtain ⟨n, rfl⟩ : ∃ m, n = m + 1 := ⟨n - 1, by omega⟩
  have hx := parseValue_render st x n (renderMore st xs ++ rest) (by omega)
    (follow_renderMore st xs rest)
  simp only [renderItems, List.append_assoc, parseItems, hx]
  cases xs with
  | nil => rfl
  | cons y ys =>
    have hlen : (renderMore st (y :: ys)).length =
        st.itemSep.length + (renderItems st (y :: ys)).length := by
      simp [renderMore, renderItems]
    have hsep := length_itemSep_pos st
    have hys := parseItems_renderItems st y ys n rest (by omega)
    simp only [renderItems, List.append_assoc] at hys
    simp only [renderMore, List.append_assoc]
    rcases itemSep_cases st with h | h
    · simp only [h, List.cons_append, List.nil_append]
      rw [skipWs_of_not_isWs (by decide)]
      simp only [parseItems_blank, hys, Option.map_some]
    · simp only [h, List.cons_append, List.nil_append]
      rw [skipWs_of_not_isWs (by decide)]
      simp only [hys, Option.map_some]
termination_by n

/-- Printed members are read back. -/
theorem parseMembers_renderMembers (st : Style) (m : String × Json) (ms : List (String × Json))
    (n : Nat) (rest : List Char) (hn : 2 * (renderMembers st (m :: ms)).length + 1 ≤ n) :
    parseMembers n (renderMembers st (m :: ms) ++ rest) = some (m :: ms, rest) := by
  obtain ⟨k, v⟩ := m
  have hquote := length_quoteBody st.ascii k.toList
  simp only [renderMembers, renderMember, quote, List.length_append, List.length_cons] at hn
  obtain ⟨n, rfl⟩ : ∃ m, n = m + 1 := ⟨n - 1, by omega⟩
  have hstr := parseStr_quoteBody st.ascii k.toList n
    (st.keySep ++ (render st v ++ (renderMoreMembers st ms ++ rest))) (by omega)
  have hv := parseValue_render st v n (renderMoreMembers st ms ++ rest) (by omega)
    (follow_renderMoreMembers st ms rest)
  simp only [renderMembers, renderMember, quote, List.cons_append, List.append_assoc, parseMembers]
  rw [skipWs_of_not_isWs (by decide)]
  simp only [hstr]
  have hsep : ∃ r, skipWs (st.keySep ++ (render st v ++ (renderMoreMembers st ms ++ rest))) =
      ':' :: r ∧ parseValue n r = some (v, renderMoreMembers st ms ++ rest) := by
    rcases keySep_cases st with h | h
    · exact ⟨_, by rw [h]; exact skipWs_of_not_isWs (by decide), parseValue_blank.trans hv⟩
    · exact ⟨_, by rw [h]; exact skipWs_of_not_isWs (by decide), hv⟩
  obtain ⟨r, hr, hval⟩ := hsep
  simp only [hr, hval]
  cases ms with
  | nil => simp [renderMoreMembers, skipWs, isWs]
  | cons m' ms' =>
    have hlen : (renderMoreMembers st (m' :: ms')).length =
        st.itemSep.length + (renderMembers st (m' :: ms')).length := by
      simp [renderMoreMembers, renderMembers]
    have hsep := length_itemSep_pos st
    have hrec := parseMembers_renderMembers st m' ms' n rest (by omega)
    simp only [renderMembers, List.append_assoc] at hrec
    simp only [renderMoreMembers, List.append_assoc]
    rcases itemSep_cases st with h | h
    · simp only [h, List.cons_append, List.nil_append]
      rw [skipWs_of_not_isWs (by decide)]
      simp only [parseMembers_blank, hrec, Option.map_some, String.ofList_toList]
    · simp only [h, List.cons_append, List.nil_append]
      rw [skipWs_of_not_isWs (by decide)]
      simp only [hrec, Option.map_some, String.ofList_toList]
termination_by n

end

/-- The parser reads a printed document back. -/
theorem parse_render (st : Style) (j : Json) : parse (render st j) = some j := by
  have h := parseValue_render st j (2 * (render st j).length + 2) [] (by omega) trivial
  rw [List.append_nil] at h
  simp [parse, h, skipWs]

/-- The text of a document determines it. -/
theorem render_injective (st : Style) : Function.Injective (render st) := by
  intro j j' h
  have := parse_render st j
  rw [h, parse_render st j'] at this
  exact (Option.some.inj this).symm

/-- A document nested in longer text is determined by that text. -/
theorem render_append_inj (st : Style) {j j' : Json} {rest rest' : List Char}
    (hrest : Follow rest) (hrest' : Follow rest')
    (h : render st j ++ rest = render st j' ++ rest') : j = j' ∧ rest = rest' := by
  have h1 := parseValue_render st j
    (2 * (render st j).length + 2 * (render st j').length) rest (by omega) hrest
  have h2 := parseValue_render st j'
    (2 * (render st j).length + 2 * (render st j').length) rest' (by omega) hrest'
  rw [h, h2] at h1
  simpa [eq_comm] using Option.some.inj h1

/-- The text of an object ends at its closing brace, whatever follows. -/
theorem render_obj_append_inj (st : Style) {ms ms' : List (String × Json)} {rest rest' : List Char}
    (h : render st (.obj ms) ++ rest = render st (.obj ms') ++ rest') :
    ms = ms' ∧ rest = rest' := by
  have hquote (m : String × Json) (more : List (String × Json)) (cs : List Char) :
      ∃ body, render st (.obj (m :: more)) ++ cs = '{' :: '"' :: body := by
    obtain ⟨k, v⟩ := m
    simp only [render, renderMembers, renderMember, quote, List.cons_append]
    exact ⟨_, rfl⟩
  cases ms with
  | nil =>
    cases ms' with
    | nil => exact ⟨rfl, by simpa [render, renderMembers] using h⟩
    | cons m' more' =>
      obtain ⟨body, hbody⟩ := hquote m' more' rest'
      rw [hbody] at h
      simp [render, renderMembers] at h
  | cons m more =>
    cases ms' with
    | nil =>
      obtain ⟨body, hbody⟩ := hquote m more rest
      rw [hbody] at h
      simp [render, renderMembers] at h
    | cons m' more' =>
      simp only [render, List.cons_append, List.cons.injEq, true_and] at h
      have h1 := parseMembers_renderMembers st m more
        (2 * (renderMembers st (m :: more)).length + 2 * (renderMembers st (m' :: more')).length + 1)
        rest (by omega)
      have h2 := parseMembers_renderMembers st m' more'
        (2 * (renderMembers st (m :: more)).length + 2 * (renderMembers st (m' :: more')).length + 1)
        rest' (by omega)
      rw [h, h2] at h1
      simpa [eq_comm] using Option.some.inj h1

/-! ## Control characters -/

private theorem le_digitChar {n : Nat} (h : n < 16) : 0x20 ≤ (Nat.digitChar n).toNat := by
  interval_cases n <;> decide

private theorem le_of_mem_quoteChar {ascii : Bool} {c d : Char} (h : d ∈ quoteChar ascii c) :
    0x20 ≤ d.toNat := by
  have hhex (n : Nat) (d : Char) (hd : d ∈ hexDigits n) : 0x20 ≤ d.toNat := by
    simp only [hexDigits, List.mem_cons, List.not_mem_nil, or_false] at hd
    rcases hd with rfl | rfl | rfl | rfl <;> exact le_digitChar (Nat.mod_lt _ (by decide))
  have hescape (n : Nat) (d : Char) (hd : d ∈ '\\' :: 'u' :: hexDigits n) : 0x20 ≤ d.toNat := by
    rcases List.mem_cons.mp hd with rfl | hd
    · decide
    rcases List.mem_cons.mp hd with rfl | hd
    · decide
    exact hhex n d hd
  have hpair (a b : Char) (ha : 0x20 ≤ a.toNat) (hb : 0x20 ≤ b.toNat) (hd : d ∈ [a, b]) :
      0x20 ≤ d.toNat := by
    rw [List.mem_pair] at hd
    rcases hd with rfl | rfl
    · exact ha
    · exact hb
  unfold quoteChar at h
  split at h
  · exact hpair _ _ (by decide) (by decide) h
  split at h
  · exact hpair _ _ (by decide) (by decide) h
  split at h
  · exact hpair _ _ (by decide) (by decide) h
  split at h
  · exact hpair _ _ (by decide) (by decide) h
  split at h
  · exact hpair _ _ (by decide) (by decide) h
  split at h
  · exact hpair _ _ (by decide) (by decide) h
  split at h
  · exact hpair _ _ (by decide) (by decide) h
  split at h
  · split at h
    · exact hescape _ d h
    · rcases List.mem_append.mp h with h | h
      · exact hescape _ d h
      · exact hescape _ d h
  · rename_i hplain
    rw [List.mem_singleton] at h
    subst h
    exact Nat.le_of_not_lt fun hlt => hplain (Or.inl hlt)

private theorem le_of_mem_quote {ascii : Bool} {s : String} {d : Char} (h : d ∈ quote ascii s) :
    0x20 ≤ d.toNat := by
  have hbody (cs : List Char) (h : d ∈ quoteBody ascii cs) : 0x20 ≤ d.toNat := by
    induction cs with
    | nil =>
      rw [quoteBody, List.mem_singleton] at h
      subst h
      decide
    | cons c cs ih =>
      rw [quoteBody, List.mem_append] at h
      rcases h with h | h
      · exact le_of_mem_quoteChar h
      · exact ih h
  rw [quote, List.mem_cons] at h
  rcases h with rfl | h
  · decide
  · exact hbody _ h

private theorem le_of_isNumChar {c : Char} (h : isNumChar c = true) : 0x20 ≤ c.toNat := by
  simp only [isNumChar, Bool.or_eq_true, beq_iff_eq] at h
  rcases h with ((((h | rfl) | rfl) | rfl) | rfl) | rfl
  · simp only [Char.isDigit, Bool.and_eq_true, decide_eq_true_eq] at h
    have hle : 48 ≤ c.val.toNat := h.1
    exact le_trans (by decide) hle
  all_goals decide

/-- A printed document has no control characters. -/
theorem le_of_mem_render (st : Style) (j : Json) {d : Char} (h : d ∈ render st j) :
    0x20 ≤ d.toNat := by
  have hsep {xs : List Char} (hxs : xs = st.itemSep ∨ xs = st.keySep) (h : d ∈ xs) :
      0x20 ≤ d.toNat := by
    obtain ⟨ascii, spaced⟩ := st
    rcases hxs with rfl | rfl <;> cases spaced <;>
      simp only [Style.itemSep, Style.keySep, if_pos, List.mem_cons, List.not_mem_nil, or_false,
        Bool.false_eq_true, if_false] at h <;>
      first
        | (subst h; decide)
        | (rcases h with rfl | rfl <;> decide)
  have hword (w : String) (hw : (w.toList.all fun c => decide (0x20 ≤ c.toNat)) = true)
      (h : d ∈ w.toList) : 0x20 ≤ d.toNat :=
    of_decide_eq_true (List.all_eq_true.mp hw d h)
  induction j using nested with
  | null => exact hword "null" (by decide) h
  | bool b =>
    cases b with
    | true => exact hword "true" (by decide) h
    | false => exact hword "false" (by decide) h
  | int n => exact le_of_isNumChar (List.all_eq_true.mp (all_isNumChar_intText n) d h)
  | float x =>
    have hwf := x.wf
    unfold isFloatLit at hwf
    rw [Bool.and_eq_true, List.all_eq_true] at hwf
    exact le_of_isNumChar (hwf.1 d h)
  | nonFinite k =>
    cases k with
    | nan => exact hword "NaN" (by decide) h
    | posInf => exact hword "Infinity" (by decide) h
    | negInf => exact hword "-Infinity" (by decide) h
  | str s => exact le_of_mem_quote h
  | arr xs ih =>
    have hmore (xs : List Json) (ih : ∀ x ∈ xs, d ∈ render st x → 0x20 ≤ d.toNat)
        (h : d ∈ renderMore st xs) : 0x20 ≤ d.toNat := by
      induction xs with
      | nil =>
        rw [renderMore, List.mem_singleton] at h
        subst h
        decide
      | cons x xs ihxs =>
        rw [List.forall_mem_cons] at ih
        rw [renderMore, List.mem_append, List.mem_append] at h
        rcases h with h | h | h
        · exact hsep (.inl rfl) h
        · exact ih.1 h
        · exact ihxs ih.2 h
    rw [render, List.mem_cons] at h
    rcases h with rfl | h
    · decide
    cases xs with
    | nil =>
      rw [renderItems, List.mem_singleton] at h
      subst h
      decide
    | cons x xs =>
      rw [List.forall_mem_cons] at ih
      rw [renderItems, List.mem_append] at h
      rcases h with h | h
      · exact ih.1 h
      · exact hmore xs ih.2 h
  | obj ms ih =>
    have hmember (m : String × Json) (ih : d ∈ render st m.2 → 0x20 ≤ d.toNat)
        (h : d ∈ renderMember st m) : 0x20 ≤ d.toNat := by
      obtain ⟨k, v⟩ := m
      rw [renderMember, List.mem_append, List.mem_append] at h
      rcases h with h | h | h
      · exact le_of_mem_quote h
      · exact hsep (.inr rfl) h
      · exact ih h
    have hmore (ms : List (String × Json)) (ih : ∀ m ∈ ms, d ∈ render st m.2 → 0x20 ≤ d.toNat)
        (h : d ∈ renderMoreMembers st ms) : 0x20 ≤ d.toNat := by
      induction ms with
      | nil =>
        rw [renderMoreMembers, List.mem_singleton] at h
        subst h
        decide
      | cons m ms ihms =>
        rw [List.forall_mem_cons] at ih
        rw [renderMoreMembers, List.mem_append, List.mem_append] at h
        rcases h with h | h | h
        · exact hsep (.inl rfl) h
        · exact hmember m ih.1 h
        · exact ihms ih.2 h
    rw [render, List.mem_cons] at h
    rcases h with rfl | h
    · decide
    cases ms with
    | nil =>
      rw [renderMembers, List.mem_singleton] at h
      subst h
      decide
    | cons m ms =>
      rw [List.forall_mem_cons] at ih
      rw [renderMembers, List.mem_append] at h
      rcases h with h | h
      · exact hmember m ih.1 h
      · exact hmore ms ih.2 h

end Json
