import Mathlib.Data.List.Basic
import MathTyping.Key
import MathTyping.Proofs.Text.Occurrences

/-!
# The modifiers of a chord

A plus sign ends the name of a modifier, but it is also a key, and a part of other names.  So
where the modifiers end is not seen from the plus signs alone.  What stands before one is held
only if it is the name of a modifier and some text follows (`ofParts_modifier`); the first piece
of which this fails begins the key, with all plus signs behind it (`ofParts_key`).

A key text is one of which it fails at its own first plus sign (`IsKeyText`).  Behind any stack of
modifiers such a text is read as it is read alone.
-/

namespace MathTyping

namespace Text

theorem join_cons_of_ne_nil (sep l : Text) {ls : List Text} (h : ls ≠ []) :
    join sep (l :: ls) = l ++ sep ++ join sep ls := by
  obtain ⟨m, rest, rfl⟩ := List.exists_cons_of_ne_nil h
  exact join_cons_cons sep l m rest

/-- Only the empty text has an empty piece and no other. -/
theorem splitOn_eq_empty_iff {sep : Char} {t : Text} : splitOn sep t = [[]] ↔ t = [] := by
  constructor
  · intro h
    have hjoin := join_splitOn sep t
    rw [h] at hjoin
    exact hjoin.symm
  · rintro rfl
    rfl

end Text

namespace Chord

variable {name t k : Text} {names : List Text}

/-- The names of the modifiers. -/
def modifierNames : List Text :=
  ["Shift".toList, "Ctrl".toList, "Control".toList, "Alt".toList, "Meta".toList, "Cmd".toList]

/-- Hold the modifiers of some names, besides those that are held. -/
def holding (chord : Chord) (names : List Text) : Chord where
  key := chord.key
  shift := (names.any fun n => n = "Shift".toList) || chord.shift
  ctrl := (names.any fun n => n = "Ctrl".toList ∨ n = "Control".toList) || chord.ctrl
  alt := (names.any fun n => n = "Alt".toList) || chord.alt
  command := (names.any fun n => n = "Meta".toList ∨ n = "Cmd".toList) || chord.command

theorem holding_cons (chord : Chord) (name : Text) (names : List Text) :
    chord.holding (name :: names) = (chord.holding [name]).holding names := by
  simp only [holding, List.any_cons, List.any_nil, Bool.or_false, Bool.or_assoc,
    Bool.or_left_comm]

/-- The name of a modifier holds it. -/
theorem hold?_of_mem (chord : Chord) (h : name ∈ modifierNames) :
    chord.hold? name = some (chord.holding [name]) := by
  simp only [modifierNames, List.mem_cons, List.not_mem_nil, or_false] at h
  rcases h with rfl | rfl | rfl | rfl | rfl | rfl <;> rfl

/-- No other name holds anything. -/
theorem hold?_of_notMem (chord : Chord) (h : name ∉ modifierNames) : chord.hold? name = none := by
  simp only [modifierNames, List.mem_cons, List.not_mem_nil, or_false, not_or] at h
  obtain ⟨hshift, hctrl, hcontrol, halt, hmeta, hcmd⟩ := h
  rw [hold?, if_neg hshift, if_neg (not_or.mpr ⟨hctrl, hcontrol⟩), if_neg halt,
    if_neg (not_or.mpr ⟨hmeta, hcmd⟩)]

theorem plus_notMem_modifier (h : name ∈ modifierNames) : '+' ∉ name := by
  have hall : ∀ name ∈ modifierNames, '+' ∉ name := by decide
  exact hall name h

/-- A text that does not itself begin with a modifier, a plus sign and more text. -/
def IsKeyText (k : Text) : Prop :=
  ∀ name ∈ modifierNames, ∀ t, t ≠ [] → k ≠ name ++ '+' :: t

theorem isKeyText_iff : IsKeyText k ↔
    ∀ name ∈ modifierNames, ((Text.dropPrefix? (name ++ ['+']) k).getD []) = [] := by
  refine forall₂_congr fun name _ => ?_
  constructor
  · intro h
    cases hdrop : Text.dropPrefix? (name ++ ['+']) k with
    | none => rfl
    | some t =>
        have hbegins := Text.dropPrefix?_eq_some_iff.mp hdrop
        by_contra ht
        exact h t ht (by simpa using hbegins)
  · rintro h t ht rfl
    have hbegins : Text.dropPrefix? (name ++ ['+']) (name ++ '+' :: t) = some t :=
      Text.dropPrefix?_eq_some_iff.mpr (by simp)
    rw [hbegins] at h
    exact ht h

instance : Decidable (IsKeyText k) := decidable_of_iff _ isKeyText_iff.symm

/-- A modifier before a plus sign and some text is held, and reading goes on with the text. -/
theorem ofParts_modifier (chord : Chord) (h : name ∈ modifierNames) (ht : t ≠ []) :
    chord.ofParts ((name ++ '+' :: t).splitOn '+') =
      (chord.holding [name]).ofParts (t.splitOn '+') := by
  rw [Text.splitOn_append (plus_notMem_modifier h),
    ofParts.eq_3 _ _ _ (Text.splitOn_ne_nil '+' t), if_neg (Text.splitOn_eq_empty_iff.not.mpr ht),
    hold?_of_mem chord h]

/-- A key text is the key as a whole. -/
theorem ofParts_key (chord : Chord) (h : IsKeyText k) :
    chord.ofParts (k.splitOn '+') = { chord with key := Key.ofName k } := by
  by_cases hplus : '+' ∈ k
  · obtain ⟨part, t, rfl, hpart⟩ := List.eq_append_cons_of_mem hplus
    have hwhole := Text.join_splitOn '+' (part ++ '+' :: t)
    rw [Text.splitOn_append hpart] at hwhole ⊢
    rw [ofParts.eq_3 _ _ _ (Text.splitOn_ne_nil '+' t), hwhole]
    by_cases hend : t = []
    · rw [if_pos (Text.splitOn_eq_empty_iff.mpr hend)]
    · -- Some text follows the plus sign, so what stands before it is no modifier.
      have hnone : part ∉ modifierNames := fun hmem => h part hmem t hend rfl
      rw [if_neg (Text.splitOn_eq_empty_iff.not.mpr hend), hold?_of_notMem chord hnone]
  · rw [Text.splitOn_of_notMem hplus]
    rfl

/-- Modifiers and a key text, joined by plus signs, hold the modifiers and name the key. -/
theorem ofParts_stack (chord : Chord) (hnames : ∀ name ∈ names, name ∈ modifierNames)
    (hk : k ≠ []) (hkey : IsKeyText k) :
    chord.ofParts ((Text.join ['+'] (names ++ [k])).splitOn '+') =
      { chord.holding names with key := Key.ofName k } := by
  induction names generalizing chord with
  | nil => exact ofParts_key chord hkey
  | cons name names ih =>
      obtain ⟨hname, hrest⟩ := List.forall_mem_cons.mp hnames
      have hjoin : Text.join ['+'] (name :: names ++ [k]) =
          name ++ '+' :: Text.join ['+'] (names ++ [k]) := by
        rw [List.cons_append, Text.join_cons_of_ne_nil _ _ (by simp), List.append_assoc]
        rfl
      -- The key at the end keeps every later text from being empty.
      have hmore : Text.join ['+'] (names ++ [k]) ≠ [] := by
        cases names with
        | nil => exact hk
        | cons l ls => rw [List.cons_append, Text.join_cons_of_ne_nil _ _ (by simp)]; simp
      rw [hjoin, ofParts_modifier chord hname hmore, ih (chord.holding [name]) hrest,
        ← holding_cons]

/-- **A chord is read behind any stack of modifiers.**  The names of modifiers, in any order and
with repetitions, and a key text, with plus signs between them, are read as the key that the text
is read as alone, with just these modifiers held.  The text may be or contain a plus sign. -/
theorem stacked_modifiers_held (names : List Text) (k : Text)
    (hnames : ∀ name ∈ names, name ∈ modifierNames) (hk : k ≠ []) (hkey : IsKeyText k) :
    let chord := ofText (Text.join ['+'] (names ++ [k]))
    chord.key = Key.ofName k ∧ ofText k = .plain (Key.ofName k) ∧
      (chord.shift ↔ "Shift".toList ∈ names) ∧
      (chord.ctrl ↔ "Ctrl".toList ∈ names ∨ "Control".toList ∈ names) ∧
      (chord.alt ↔ "Alt".toList ∈ names) ∧
      (chord.command ↔ "Meta".toList ∈ names ∨ "Cmd".toList ∈ names) := by
  intro chord
  have hchord : chord = { (plain .shift).holding names with key := Key.ofName k } :=
    ofParts_stack (plain .shift) hnames hk hkey
  rw [hchord]
  refine ⟨rfl, ofParts_key (plain .shift) hkey, ?_, ?_, ?_, ?_⟩ <;>
    simp only [holding, plain, Bool.or_false, List.any_eq_true, decide_eq_true_eq]
  · simp only [exists_eq_right]
  · simp only [and_or_left, exists_or, exists_eq_right]
  · simp only [exists_eq_right]
  · simp only [and_or_left, exists_or, exists_eq_right]

/-- A stack with repetitions before the plus sign, before a name that contains plus signs, and
before the name of a modifier with nothing behind its plus sign. -/
theorem plus_signs_read_as_keys :
    let names := ["Control".toList, "Shift".toList, "Cmd".toList, "Shift".toList]
    (∀ name ∈ names, name ∈ modifierNames) ∧
      (∀ k ∈ ["+".toList, "a+Alt+b".toList, "Alt+".toList], k ≠ [] ∧ IsKeyText k ∧
        (ofText (Text.join ['+'] (names ++ [k]))).key = Key.ofName k) ∧
      ofText "Control+Shift+Cmd+Shift++".toList = ⟨.char '+', true, true, false, true⟩ := by
  intro names
  have hnames : ∀ name ∈ names, name ∈ modifierNames := by decide
  have hkeys : ∀ k ∈ ["+".toList, "a+Alt+b".toList, "Alt+".toList], k ≠ [] ∧ IsKeyText k := by
    decide
  refine ⟨hnames, fun k hk => ?_, by decide⟩
  obtain ⟨hne, hkey⟩ := hkeys k hk
  exact ⟨hne, hkey, (stacked_modifiers_held names k hnames hne hkey).1⟩

end Chord

end MathTyping
