import Ugk.Native.Kernel

/-!
# Sample environments

Two environments with every library function given: `sampleEnv`, whose hash is injective, and
`shortEnv`, whose digests are short numbers that evaluate fast.

## Key results

- `sampleHash_injective`: the hash of `sampleEnv` is injective
-/

namespace Ugk

/-! ## An injective hash -/

/-- A character as ASCII text: as many marks as its code, and an end mark. -/
def tally (c : Char) : List Char := List.replicate c.toNat '1' ++ ['.']

/-- A symbol of a preimage as ASCII text. -/
def symText : Sym → List Char
  | .ch c => 'c' :: tally c
  | .dg d => 'd' :: (d.hex.toList.flatMap tally ++ ['/'])

theorem tally_append_inj {c c' : Char} {rest rest' : List Char}
    (h : tally c ++ rest = tally c' ++ rest') : c = c' ∧ rest = rest' := by
  have hcount (n m : Nat) (xs ys : List Char)
      (h : List.replicate n '1' ++ '.' :: xs = List.replicate m '1' ++ '.' :: ys) :
      n = m ∧ xs = ys := by
    induction n generalizing m with
    | zero => cases m <;> simp_all [List.replicate_succ]
    | succ n ih =>
      cases m with
      | zero => simp [List.replicate_succ] at h
      | succ m =>
        have := ih m (by simpa [List.replicate_succ] using h)
        exact ⟨by omega, this.2⟩
  obtain ⟨hn, hrest⟩ := hcount c.toNat c'.toNat rest rest' (by simpa [tally] using h)
  exact ⟨Char.toNat_inj.mp hn, hrest⟩

theorem tallies_append_inj {cs cs' rest rest' : List Char}
    (h : cs.flatMap tally ++ '/' :: rest = cs'.flatMap tally ++ '/' :: rest') :
    cs = cs' ∧ rest = rest' := by
  have hstart (c : Char) (xs ys : List Char) : '/' :: xs ≠ tally c ++ ys := by
    unfold tally
    cases c.toNat <;> simp [List.replicate_succ]
  induction cs generalizing cs' with
  | nil =>
    cases cs' with
    | nil => exact ⟨rfl, by simpa using h⟩
    | cons c' cs' => exact absurd (by simpa using h) (hstart c' _ _)
  | cons c cs ih =>
    cases cs' with
    | nil => exact absurd (by simpa using h.symm) (hstart c _ _)
    | cons c' cs' =>
      rw [List.flatMap_cons, List.flatMap_cons, List.append_assoc, List.append_assoc] at h
      obtain ⟨rfl, htail⟩ := tally_append_inj h
      obtain ⟨rfl, hrest⟩ := ih htail
      exact ⟨rfl, hrest⟩

theorem Digest.ext_hex {d d' : Digest} (h : d.hex = d'.hex) : d = d' := by
  cases d
  cases d'
  cases h
  rfl

theorem symText_append_inj {a b : Sym} {rest rest' : List Char}
    (h : symText a ++ rest = symText b ++ rest') : a = b ∧ rest = rest' := by
  cases a with
  | ch c =>
    cases b with
    | ch c' =>
      obtain ⟨rfl, hrest⟩ := tally_append_inj (List.cons.inj h).2
      exact ⟨rfl, hrest⟩
    | dg d => exact absurd (List.cons.inj h).1 (by decide)
  | dg d =>
    cases b with
    | ch c => exact absurd (List.cons.inj h).1 (by decide)
    | dg d' =>
      have htail := (List.cons.inj h).2
      simp only [List.append_eq, List.append_assoc, List.cons_append, List.nil_append] at htail
      obtain ⟨hhex, hrest⟩ := tallies_append_inj htail
      exact ⟨congrArg Sym.dg (Digest.ext_hex (String.toList_inj.mp hhex)), hrest⟩

theorem flatMap_symText_injective {m m' : Message} (h : m.flatMap symText = m'.flatMap symText) :
    m = m' := by
  have hne (a : Sym) : symText a ≠ [] := by cases a <;> simp [symText]
  induction m generalizing m' with
  | nil =>
    cases m' with
    | nil => rfl
    | cons b m' => exact absurd h.symm (by simp [hne])
  | cons a m ih =>
    cases m' with
    | nil => exact absurd h (by simp [hne])
    | cons b m' =>
      obtain ⟨rfl, hrest⟩ := symText_append_inj h
      rw [ih hrest]

theorem isAscii_flatMap_symText (m : Message) :
    (m.flatMap symText).all (fun c => c.toNat < 128) = true := by
  have htally (c : Char) : (tally c).all (fun c => c.toNat < 128) = true := by
    simp [tally, List.all_append, List.all_replicate]
  rw [List.all_flatMap]
  refine List.all_eq_true.mpr fun a _ => ?_
  cases a with
  | ch c => simp [symText, htally]
  | dg d => simp [symText, List.all_flatMap, htally]

/-- A digest that spells out its preimage. -/
def sampleHash (m : Message) : Digest where
  hex := String.ofList ('h' :: m.flatMap symText)
  nonempty := by simp
  ascii := by
    rw [isAscii, String.toList_ofList, List.all_cons, isAscii_flatMap_symText]
    rfl

theorem sampleHash_injective : Function.Injective sampleHash := by
  intro m m' h
  have hhex : String.ofList ('h' :: m.flatMap symText) = String.ofList ('h' :: m'.flatMap symText) :=
    congrArg Digest.hex h
  exact flatMap_symText_injective (List.cons.inj (String.ofList_injective hhex)).2

/-- Every digest starts with the same letter. -/
theorem sampleHash_hex_ne (m : Message) {s : String} (hs : s.toList.head? ≠ some 'h') :
    (sampleHash m).hex ≠ s := by
  rintro rfl
  exact hs (by rw [sampleHash, String.toList_ofList, List.head?_cons])

/-! ## Environments -/

/-- Everything but the hash: ASCII text only, floats read back as written. -/
def envOf (hash : Message → Digest) : Env where
  sha256 := hash
  nfcNonAscii := id
  floatOfText := .fin
  floatLt _ _ := false
  decimalNonAscii _ := none
  isSpaceNonAscii _ := false
  sqliteFloatText
    | .fin x => some (String.ofList x.text)
    | .nonFinite _ => none
  sign _ _ := "signature"

def sampleEnv : Env := envOf sampleHash

/-- The preimage as a number modulo a prime. -/
def shortCode (m : Message) : Nat :=
  m.foldl (fun n s => match s with
    | .ch c => (n * 257 + c.toNat) % 1000000007
    | .dg d => d.hex.toList.foldl (fun n c => (n * 257 + c.toNat + 1) % 1000000007) n) 7

/-- A short digest, the decimal digits of `shortCode`. -/
def shortHash (m : Message) : Digest where
  hex := String.ofList ('h' :: Nat.toDigits 10 (shortCode m))
  nonempty := by simp
  ascii := by
    have hdigit (c : Char) (h : c ∈ Nat.toDigits 10 (shortCode m)) : c.toNat < 128 := by
      have := Nat.isDigit_of_mem_toDigits (by omega) (by omega) h
      simp only [Char.isDigit, Bool.and_eq_true, decide_eq_true_eq] at this
      have hle : c.val.toNat ≤ 57 := this.2
      exact Nat.lt_of_le_of_lt hle (by omega)
    rw [isAscii, String.toList_ofList, List.all_eq_true]
    intro c hc
    rcases List.mem_cons.mp hc with rfl | hc
    · rfl
    · simpa using hdigit c hc

def shortEnv : Env := envOf shortHash

/-- A deployment without registrations. -/
def configOf (env : Env) : Config :=
  { env with
    policies := []
    authorityKeys := []
    edges := []
    applicationOps := ["attest", "audit", "bind", "evaluate", "policy_evaluate"]
    codexHash := ""
    governorPubkey := "governor"
    phaseCode := "ugk-0.1.0" }

theorem isFloatLit_sample : isFloatLit "1.5".toList = true := by decide

/-- Noon of some day, always. -/
def sampleClock : Store.Clock := fun _ => ⟨"1.5".toList, isFloatLit_sample⟩

/-- The deployment of the sample environment. -/
def sampleRuntime : Runtime :=
  { configOf sampleEnv with
    clock := sampleClock
    isoTime := fun _ => "2026-01-01T00:00:00Z"
    verifyGovernor := fun _ _ => false }

end Ugk
