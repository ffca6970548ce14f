import Ugk.ForStd.Stepwise

/-!
# Sagas

An attempt is announced under a key and closed once: it was performed, or it was not.  What was
performed can be offset once, under a key of its own, and the offset is announced and closed in the
same way.  A log is lawful when every entry was allowed by the entries before it.

## Key results

- `Lawful.offset_spec`: what an offset rests on
- `Lawful.close_after`, `Lawful.settle_after`: what was announced can be closed after a self-contained
  extension
-/

namespace Saga

variable {ρ κ : Type*}

/-- An entry of a log, about the attempt `ref`. -/
inductive Entry (ρ κ : Type*) where
  | attempt (ref : ρ) (key : κ)
  | close (performed : Bool) (ref : ρ) (key : κ)
  | offset (ref : ρ) (key own : κ)
  | settle (performed : Bool) (ref : ρ) (key own : κ)

variable {log old new : List (Entry ρ κ)} {ref : ρ} {key own : κ} {performed : Bool}

/-- The attempt has not been closed. -/
def IsOpen (log : List (Entry ρ κ)) (ref : ρ) : Prop := ∀ p k, .close p ref k ∉ log

/-- The offset of the attempt has not been closed. -/
def IsUnsettled (log : List (Entry ρ κ)) (ref : ρ) : Prop := ∀ p k o, .settle p ref k o ∉ log

/-- What may follow a log: a new attempt, the closing of an open one, the offset of one that was
    performed and is not offset, and the closing of an unsettled offset. -/
def Allowed (log : List (Entry ρ κ)) : Entry ρ κ → Prop
  | .attempt ref _ => ∀ k, .attempt ref k ∉ log
  | .close _ ref key => .attempt ref key ∈ log ∧ IsOpen log ref
  | .offset ref key own => .close true ref key ∈ log ∧ own ≠ key ∧ ∀ k o, .offset ref k o ∉ log
  | .settle _ ref key own => .offset ref key own ∈ log ∧ IsUnsettled log ref

/-- Every entry was allowed by the entries before it. -/
abbrev Lawful (log : List (Entry ρ κ)) : Prop := Stepwise Allowed log

namespace Lawful

/-! ## What an entry rests on -/

theorem attempt_of_close (h : Lawful log) (hmem : .close performed ref key ∈ log) :
    .attempt ref key ∈ log := by
  obtain ⟨pre, post, rfl⟩ := List.append_of_mem hmem
  exact List.mem_append_left _ (h pre _ post rfl).1

theorem offset_of_settle (h : Lawful log) (hmem : .settle performed ref key own ∈ log) :
    .offset ref key own ∈ log := by
  obtain ⟨pre, post, rfl⟩ := List.append_of_mem hmem
  exact List.mem_append_left _ (h pre _ post rfl).1

theorem close_of_offset (h : Lawful log) (hmem : .offset ref key own ∈ log) :
    .close true ref key ∈ log ∧ own ≠ key := by
  obtain ⟨pre, post, rfl⟩ := List.append_of_mem hmem
  obtain ⟨hclose, hne, _⟩ := h pre _ post rfl
  exact ⟨List.mem_append_left _ hclose, hne⟩

/-- An attempt is announced under one key. -/
theorem attempt_key (h : Lawful log) {key' : κ} (hmem : .attempt ref key ∈ log)
    (hmem' : .attempt ref key' ∈ log) : key = key' := by
  have heq := eq_of_stepwise (p := fun e => ∃ k, e = Entry.attempt (κ := κ) ref k)
    (h.mono fun pre e he hp b hb => ?_) hmem hmem' ⟨key, rfl⟩ ⟨key', rfl⟩
  · exact (Entry.attempt.inj heq).2
  · obtain ⟨k, rfl⟩ := hp
    rintro ⟨k', rfl⟩
    exact he k' hb

/-- An attempt is closed in one way. -/
theorem close_performed (h : Lawful log) {performed' : Bool} {key' : κ}
    (hmem : .close performed ref key ∈ log) (hmem' : .close performed' ref key' ∈ log) :
    performed = performed' := by
  have heq := eq_of_stepwise (p := fun e => ∃ p k, e = Entry.close (κ := κ) p ref k)
    (h.mono fun pre e he hp b hb => ?_) hmem hmem' ⟨performed, key, rfl⟩ ⟨performed', key', rfl⟩
  · exact (Entry.close.inj heq).1
  · obtain ⟨p, k, rfl⟩ := hp
    rintro ⟨p', k', rfl⟩
    exact he.2 p' k' hb

/-- An attempt is offset under one pair of keys. -/
theorem offset_keys (h : Lawful log) {key' own' : κ} (hmem : .offset ref key own ∈ log)
    (hmem' : .offset ref key' own' ∈ log) : key = key' ∧ own = own' := by
  have heq := eq_of_stepwise (p := fun e => ∃ k o, e = Entry.offset (κ := κ) ref k o)
    (h.mono fun pre e he hp b hb => ?_) hmem hmem' ⟨key, own, rfl⟩ ⟨key', own', rfl⟩
  · exact (Entry.offset.inj heq).2
  · obtain ⟨k, o, rfl⟩ := hp
    rintro ⟨k', o', rfl⟩
    exact he.2.2 k' o' hb

/-- An offset comes after its attempt was announced and closed as performed, which it stays. -/
theorem offset_spec (h : Lawful log) {pre post : List (Entry ρ κ)}
    (hlog : log = pre ++ .offset ref key own :: post) :
    .attempt ref key ∈ pre ∧ .close true ref key ∈ pre ∧ own ≠ key ∧
      ∀ k, .close false ref k ∉ log := by
  obtain ⟨hclose, hne, _⟩ := h pre _ post hlog
  have hpre : Lawful pre := Stepwise.of_prefix (hlog ▸ h)
  refine ⟨hpre.attempt_of_close hclose, hclose, hne, fun k hk => ?_⟩
  have hmem : .close true ref key ∈ log := by
    rw [hlog]
    exact List.mem_append_left _ hclose
  exact Bool.noConfusion (h.close_performed hmem hk)

/-! ## What is open -/

/-- An attempt that is announced for the first time is open. -/
theorem isOpen_of_allowed (h : Lawful log) (hnew : Allowed log (.attempt ref key)) :
    IsOpen log ref := fun _ k hmem => hnew k (h.attempt_of_close hmem)

/-- An offset that is announced for the first time is unsettled. -/
theorem isUnsettled_of_allowed (h : Lawful log) (hnew : Allowed log (.offset ref key own)) :
    IsUnsettled log ref := fun _ k o hmem => hnew.2.2 k o (h.offset_of_settle hmem)

/-- An attempt without a closing entry under its own key is open. -/
theorem isOpen_of_key (h : Lawful log) (hmem : .attempt ref key ∈ log)
    (hno : ∀ p, .close p ref key ∉ log) : IsOpen log ref := by
  intro p k hclose
  have hkey := h.attempt_key hmem (h.attempt_of_close hclose)
  rw [← hkey] at hclose
  exact hno p hclose

end Lawful

/-! ## Self-contained extensions -/

/-- What is closed in the log was announced in it. -/
structure Contained (log : List (Entry ρ κ)) : Prop where
  close : ∀ p ref k, .close p ref k ∈ log → ∃ k', .attempt ref k' ∈ log
  settle : ∀ p ref k o, .settle p ref k o ∈ log → ∃ k' o', .offset ref k' o' ∈ log

theorem contained_nil : Contained ([] : List (Entry ρ κ)) :=
  ⟨fun _ _ _ h => absurd h List.not_mem_nil, fun _ _ _ _ h => absurd h List.not_mem_nil⟩

theorem Contained.append (hold : Contained old) (hnew : Contained new) : Contained (old ++ new) := by
  constructor
  · intro p ref k h
    rcases List.mem_append.mp h with h | h
    · obtain ⟨k', hk'⟩ := hold.close p ref k h
      exact ⟨k', List.mem_append_left new hk'⟩
    · obtain ⟨k', hk'⟩ := hnew.close p ref k h
      exact ⟨k', List.mem_append_right old hk'⟩
  · intro p ref k o h
    rcases List.mem_append.mp h with h | h
    · obtain ⟨k', o', hk'⟩ := hold.settle p ref k o h
      exact ⟨k', o', List.mem_append_left new hk'⟩
    · obtain ⟨k', o', hk'⟩ := hnew.settle p ref k o h
      exact ⟨k', o', List.mem_append_right old hk'⟩

/-- An announcement is self-contained. -/
theorem contained_announce {e : Entry ρ κ} (h : (∃ ref key, e = .attempt ref key) ∨
    ∃ ref key own, e = .offset ref key own) : Contained [e] := by
  constructor
  · intro p ref k hmem
    have heq := List.mem_singleton.mp hmem
    rcases h with ⟨_, _, rfl⟩ | ⟨_, _, _, rfl⟩ <;> exact nomatch heq
  · intro p ref k o hmem
    have heq := List.mem_singleton.mp hmem
    rcases h with ⟨_, _, rfl⟩ | ⟨_, _, _, rfl⟩ <;> exact nomatch heq

/-- Closing what was announced in the log keeps it self-contained. -/
theorem Contained.concat (h : Contained log) {e : Entry ρ κ} (he : Allowed log e) :
    Contained (log ++ [e]) := by
  constructor
  · intro p ref k hmem
    rcases List.mem_append.mp hmem with hmem | hmem
    · obtain ⟨k', hk'⟩ := h.close p ref k hmem
      exact ⟨k', List.mem_append_left _ hk'⟩
    · obtain rfl := List.mem_singleton.mp hmem
      exact ⟨k, List.mem_append_left _ he.1⟩
  · intro p ref k o hmem
    rcases List.mem_append.mp hmem with hmem | hmem
    · obtain ⟨k', o', hk'⟩ := h.settle p ref k o hmem
      exact ⟨k', o', List.mem_append_left _ hk'⟩
    · obtain rfl := List.mem_singleton.mp hmem
      exact ⟨k, o, List.mem_append_left _ he.1⟩

namespace Lawful

/-- After what stands on its own, an attempt that was announced before it can be closed, and the whole
    stands on its own. -/
theorem close_after (h : Lawful (log ++ .attempt ref key :: new)) (hnew : Contained new) :
    Allowed (log ++ .attempt ref key :: new) (.close performed ref key) ∧
      Contained (.attempt ref key :: new ++ [.close performed ref key]) := by
  have hopen : IsOpen (log ++ .attempt ref key :: new) ref := by
    intro p k hclose
    have hfirst : Allowed log (.attempt ref key) := h log _ new rfl
    rcases List.mem_append.mp hclose with hlog | htail
    · exact isOpen_of_allowed (Stepwise.of_prefix h) hfirst p k hlog
    · rcases List.mem_cons.mp htail with heq | hmid
      · exact nomatch heq
      · -- the extension would have announced the attempt a second time
        obtain ⟨k', hk'⟩ := hnew.close p ref k hmid
        obtain ⟨pre, post, rfl⟩ := List.append_of_mem hk'
        have hagain : Allowed (log ++ .attempt ref key :: pre) (.attempt ref k') :=
          h _ _ post (by simp)
        exact hagain key (by simp)
  have hannounced : Contained (.attempt ref key :: new) :=
    (contained_announce (.inl ⟨ref, key, rfl⟩)).append hnew
  refine ⟨⟨by simp, hopen⟩, hannounced.concat ⟨by simp, fun p k hclose => ?_⟩⟩
  exact hopen p k (List.mem_append_right log hclose)

/-- After what stands on its own, an offset that was announced before it can be settled. -/
theorem settle_after (h : Lawful (log ++ .offset ref key own :: new)) (hnew : Contained new) :
    Allowed (log ++ .offset ref key own :: new) (.settle performed ref key own) ∧
      Contained (.offset ref key own :: new ++ [.settle performed ref key own]) := by
  have hopen : IsUnsettled (log ++ .offset ref key own :: new) ref := by
    intro p k o hsettle
    have hfirst : Allowed log (.offset ref key own) := h log _ new rfl
    rcases List.mem_append.mp hsettle with hlog | htail
    · exact isUnsettled_of_allowed (Stepwise.of_prefix h) hfirst p k o hlog
    · rcases List.mem_cons.mp htail with heq | hmid
      · exact nomatch heq
      · obtain ⟨k', o', hk'⟩ := hnew.settle p ref k o hmid
        obtain ⟨pre, post, rfl⟩ := List.append_of_mem hk'
        have hagain : Allowed (log ++ .offset ref key own :: pre) (.offset ref k' o') :=
          h _ _ post (by simp)
        exact hagain.2.2 key own (by simp)
  have hannounced : Contained (.offset ref key own :: new) :=
    (contained_announce (.inr ⟨ref, key, own, rfl⟩)).append hnew
  refine ⟨⟨by simp, hopen⟩, hannounced.concat ⟨by simp, fun p k o hsettle => ?_⟩⟩
  exact hopen p k o (List.mem_append_right log hsettle)

end Lawful

end Saga
