import MathTyping.Host

/-!
# What a screen shows

Of everything on a screen, a session decides three parts: the popup, the
preview pane and the decorations.  They form the view of the screen.  This file
carries effects out in order and says what each of them does to the view.  An
effect either changes one part of it in a known way, or it is silent and leaves
the view alone.

Decorations are read by class.  Removing some classes empties them and keeps
all others, so the decorations of brackets and those of a query never disturb
each other.
-/

namespace MathTyping

/-- The part of a screen that a session decides. -/
structure View where
  popup : Option PopupView
  preview : Option PreviewPane
  highlights : List Highlight
deriving DecidableEq

namespace View

/-- The decorations with one of some classes. -/
def decorated (w : View) (classes : List Text) : List Highlight :=
  w.highlights.filter fun h => classes.contains h.className

variable {w later : View} {classes : List Text} {marks : List Highlight}

/-- Removing the decorations of some classes keeps those of all others. -/
theorem decorated_of_removed {removed : List Text}
    (hlater : later.highlights = w.highlights.filter fun h => !removed.contains h.className)
    (hdisjoint : ∀ c ∈ classes, c ∉ removed) : later.decorated classes = w.decorated classes := by
  rw [decorated, hlater, decorated, List.filter_filter]
  apply List.filter_congr
  intro h _
  by_cases hclass : h.className ∈ classes
  · simp [hclass, hdisjoint _ hclass]
  · simp [hclass]

/-- Added decorations of other classes do not count. -/
theorem decorated_of_added (hlater : later.highlights = w.highlights ++ marks)
    (hmarks : ∀ h ∈ marks, h.className ∉ classes) :
    later.decorated classes = w.decorated classes := by
  rw [decorated, hlater, decorated, List.filter_append]
  have hnone : (marks.filter fun h => classes.contains h.className) = [] := by
    rw [List.filter_eq_nil_iff]
    intro h hmem
    simpa using hmarks h hmem
  rw [hnone, List.append_nil]

/-- Removed classes have no decorations left. -/
theorem decorated_eq_nil_of_removed {removed : List Text}
    (hlater : later.highlights = w.highlights.filter fun h => !removed.contains h.className)
    (hclasses : ∀ c ∈ classes, c ∈ removed) : later.decorated classes = [] := by
  rw [decorated, hlater, List.filter_eq_nil_iff]
  intro h hmem hclass
  rw [List.mem_filter] at hmem
  simp only [List.contains_eq_mem, decide_eq_true_eq] at hclass
  simpa [hclasses _ hclass] using hmem.2

/-- Replacing the decorations of some classes leaves exactly the new ones. -/
theorem decorated_of_replaced
    (hlater : later.highlights =
      (w.highlights.filter fun h => !classes.contains h.className) ++ marks)
    (hmarks : ∀ h ∈ marks, h.className ∈ classes) : later.decorated classes = marks := by
  have hold : View.decorated
      { w with highlights := w.highlights.filter fun h => !classes.contains h.className }
      classes = [] := decorated_eq_nil_of_removed (w := w) rfl fun _ hc => hc
  rw [decorated] at hold
  have hnew : (marks.filter fun h => classes.contains h.className) = marks := by
    rw [List.filter_eq_self]
    intro h hmem
    simpa using hmarks h hmem
  rw [decorated, hlater, List.filter_append, hold, hnew, List.nil_append]

end View

namespace Effect

/-- Tell whether an effect leaves the view alone. -/
def isSilent : Effect → Bool
  | .splice _ | .setSelection _ | .request _ | .notice _ | .defer _ _ => true
  | _ => false

/-- Tell whether an effect leaves the popup and the preview pane alone. -/
def keepsPanes : Effect → Bool
  | .addHighlights _ | .removeHighlights _ => true
  | e => e.isSilent

/-- An effect spares some classes if it neither adds nor removes decorations of theirs. -/
def Spares (classes : List Text) : Effect → Prop
  | .addHighlights marks => ∀ h ∈ marks, h.className ∉ classes
  | .removeHighlights removed => ∀ c ∈ classes, c ∉ removed
  | _ => True

/-- An effect adds decorations of some classes only. -/
def AddsOnly (classes : List Text) : Effect → Prop
  | .addHighlights marks => ∀ h ∈ marks, h.className ∈ classes
  | _ => True

/-- The request that an effect is, if it is one. -/
def request? : Effect → Option RenderRequest
  | .request r => some r
  | _ => none

/-- The requests among some effects, in order. -/
def requests (effects : List Effect) : List RenderRequest := effects.filterMap request?

@[simp] theorem requests_nil : requests [] = [] := rfl

@[simp] theorem requests_append (effects more : List Effect) :
    requests (effects ++ more) = requests effects ++ requests more :=
  List.filterMap_append

theorem requests_eq_nil {effects : List Effect} (h : ∀ e ∈ effects, e.request? = none) :
    requests effects = [] :=
  List.filterMap_eq_nil_iff.mpr h

theorem keepsPanes_of_isSilent {e : Effect} (h : e.isSilent) : e.keepsPanes := by
  cases e <;> first | exact h | rfl

theorem addsOnly_of_isSilent (classes : List Text) {e : Effect} (h : e.isSilent) :
    e.AddsOnly classes := by
  cases e <;> first | exact trivial | simp [isSilent] at h

end Effect

namespace Screen

/-- The view of a screen. -/
def view (v : Screen) : View := ⟨v.popup, v.preview, v.highlights⟩

/-- Carry out effects in order. -/
def applyAll (v : Screen) (effects : List Effect) : Screen :=
  effects.foldl (fun w e => (w.apply e).1) v

@[simp] theorem applyAll_cons (v : Screen) (e : Effect) (effects : List Effect) :
    v.applyAll (e :: effects) = (v.apply e).1.applyAll effects := rfl

theorem applyAll_append (v : Screen) (effects more : List Effect) :
    v.applyAll (effects ++ more) = (v.applyAll effects).applyAll more :=
  List.foldl_append

/-- A host carries effects out on its screen in this very order. -/
theorem screen_hostApplyAll (h : Host) (effects : List Effect) :
    (h.applyAll effects).1.screen = h.screen.applyAll effects := by
  induction effects generalizing h with
  | nil => rfl
  | cons e effects ih => exact ih (h.apply e).1

/-! ### What effects do to the view -/

theorem view_apply_of_isSilent (v : Screen) {e : Effect} (h : e.isSilent) :
    (v.apply e).1.view = v.view := by
  cases e <;> first | rfl | simp [Effect.isSilent] at h

/-- Silent effects, however many, leave the view alone. -/
theorem view_applyAll_of_isSilent (v : Screen) {effects : List Effect}
    (h : ∀ e ∈ effects, e.isSilent) : (v.applyAll effects).view = v.view := by
  induction effects generalizing v with
  | nil => rfl
  | cons e effects ih =>
      rw [applyAll_cons, ih _ fun f hf => h f (List.mem_cons_of_mem e hf)]
      exact view_apply_of_isSilent v (h e List.mem_cons_self)

/-- Effects that keep the panes leave the popup and the preview where they are. -/
theorem panes_applyAll_of_keepsPanes (v : Screen) {effects : List Effect}
    (h : ∀ e ∈ effects, e.keepsPanes) :
    (v.applyAll effects).view.popup = v.view.popup ∧
      (v.applyAll effects).view.preview = v.view.preview := by
  induction effects generalizing v with
  | nil => exact ⟨rfl, rfl⟩
  | cons e effects ih =>
      have hhead : (v.apply e).1.view.popup = v.view.popup ∧
          (v.apply e).1.view.preview = v.view.preview := by
        have hkeeps := h e List.mem_cons_self
        cases e <;> first | exact ⟨rfl, rfl⟩ | simp [Effect.keepsPanes, Effect.isSilent] at hkeeps
      obtain ⟨hpopup, hpreview⟩ := ih (v.apply e).1 fun f hf => h f (List.mem_cons_of_mem e hf)
      exact ⟨hpopup.trans hhead.1, hpreview.trans hhead.2⟩

/-- Effects that spare some classes keep their decorations, in order. -/
theorem decorated_applyAll_of_spares (v : Screen) {classes : List Text} {effects : List Effect}
    (h : ∀ e ∈ effects, e.Spares classes) :
    (v.applyAll effects).view.decorated classes = v.view.decorated classes := by
  induction effects generalizing v with
  | nil => rfl
  | cons e effects ih =>
      rw [applyAll_cons, ih _ fun f hf => h f (List.mem_cons_of_mem e hf)]
      have hhead := h e List.mem_cons_self
      cases e with
      | addHighlights marks => exact View.decorated_of_added rfl hhead
      | removeHighlights removed => exact View.decorated_of_removed rfl hhead
      | _ => rfl

/-- If no other classes are added, there are none. -/
theorem className_mem_applyAll {v : Screen} {classes : List Text} {effects : List Effect}
    (hadds : ∀ e ∈ effects, e.AddsOnly classes)
    (h : ∀ m ∈ v.view.highlights, m.className ∈ classes) :
    ∀ m ∈ (v.applyAll effects).view.highlights, m.className ∈ classes := by
  induction effects generalizing v with
  | nil => exact h
  | cons e effects ih =>
      refine ih (fun f hf => hadds f (List.mem_cons_of_mem e hf)) ?_
      have hhead := hadds e List.mem_cons_self
      cases e with
      | addHighlights marks =>
          intro m hmem
          rcases List.mem_append.mp hmem with hold | hnew
          · exact h m hold
          · exact hhead m hnew
      | removeHighlights removed =>
          intro m hmem
          exact h m (List.mem_filter.mp hmem).1
      | _ => exact h

/-! ### Conditions on every screen along the way -/

/-- Every screen on the way through some effects, the first and the last included, meets a
condition. -/
def Throughout (P : View → Prop) (v : Screen) (effects : List Effect) : Prop :=
  ∀ passed, passed <+: effects → P (v.applyAll passed).view

theorem throughout_nil {P : View → Prop} {v : Screen} (hhere : P v.view) :
    v.Throughout P [] := by
  intro passed hpassed
  rw [List.prefix_nil.mp hpassed]
  exact hhere

theorem throughout_cons {P : View → Prop} {v : Screen} {e : Effect} {effects : List Effect}
    (hhere : P v.view) (hlater : (v.apply e).1.Throughout P effects) :
    v.Throughout P (e :: effects) := by
  intro passed hpassed
  cases passed with
  | nil => exact hhere
  | cons f passed =>
      obtain ⟨rfl, hrest⟩ := List.cons_prefix_cons.mp hpassed
      exact hlater passed hrest

theorem throughout_append {P : View → Prop} {v : Screen} {effects more : List Effect}
    (hfirst : v.Throughout P effects) (hmore : (v.applyAll effects).Throughout P more) :
    v.Throughout P (effects ++ more) := by
  induction effects generalizing v with
  | nil => exact hmore
  | cons e effects ih =>
      refine throughout_cons (hfirst [] List.nil_prefix) (ih ?_ hmore)
      intro passed hpassed
      exact hfirst (e :: passed) (List.cons_prefix_cons.mpr ⟨rfl, hpassed⟩)

theorem Throughout.mono {P Q : View → Prop} {v : Screen} {effects : List Effect}
    (h : v.Throughout P effects) (himp : ∀ w, P w → Q w) : v.Throughout Q effects :=
  fun passed hpassed => himp _ (h passed hpassed)

/-- A condition that each effect of a list keeps holds all along the list. -/
theorem throughout_of_kept {P : View → Prop} {effects : List Effect}
    (hkept : ∀ e ∈ effects, ∀ v : Screen, P v.view → P (v.apply e).1.view) {v : Screen}
    (hhere : P v.view) : v.Throughout P effects := by
  induction effects generalizing v with
  | nil => exact throughout_nil hhere
  | cons e effects ih =>
      refine throughout_cons hhere (ih (fun f hf => hkept f (List.mem_cons_of_mem e hf)) ?_)
      exact hkept e List.mem_cons_self v hhere

end Screen

end MathTyping
