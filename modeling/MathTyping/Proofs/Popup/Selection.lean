import Mathlib.Data.List.Basic
import MathTyping.Proofs.Guarded.Popup
import MathTyping.Proofs.Popup.Draft

/-!
# The highlight of an open popup

The candidates of a popup are replaced under its highlight, the pointer gives any index, and the
arrows go around the ends by remainders.  Each is safe by a check of its own: a highlight only
survives among the new candidates, an index off the end is ignored, and remainders are by the
number of candidates, which is never zero since a popup is only offered with some
(`valid_update`).  From then on the candidates only go with the popup.

The arrows turn the highlight, down by one step and up by one step less than a full turn
(`turned`).  So either one is back after as many presses as there are candidates, and up undoes
down.
-/

namespace MathTyping

namespace Suggestions

variable {α : Type} {s : Suggestions α} {kind : QueryKind} {query : Query} {candidates : List α}
  {selected : Option Nat} {i n : Nat}

/-- Suggestions that are valid for a kind of query: there are some, the highlight is on one of
them, the query is of the kind, and a choice takes a candidate without failing. -/
structure Valid (s : Suggestions α) (kind : QueryKind) : Prop where
  stocked : s.candidates ≠ []
  selected_lt : ∀ i, s.selected = some i → i < s.candidates.length
  kind_eq : s.query.kind = kind
  chosen : ∃ a, s.chosen? = some a ∧ Guarded.chosen s = pure a

/-- A choice only fails for want of candidates. -/
theorem valid_of (hstocked : s.candidates ≠ [])
    (hselected : ∀ i, s.selected = some i → i < s.candidates.length) (hkind : s.query.kind = kind) :
    s.Valid kind :=
  ⟨hstocked, hselected, hkind, Guarded.exists_chosen hstocked⟩

theorem surviving_lt (h : surviving candidates selected = some i) : i < candidates.length := by
  rw [surviving, Option.filter_eq_some_iff] at h
  simpa using h.2

theorem Valid.select (h : s.Valid kind) (hi : i < s.candidates.length) :
    Valid { s with selected := some i } kind :=
  valid_of h.stocked (fun _ hselected => Option.some.inj hselected ▸ hi) h.kind_eq

theorem Valid.next (h : s.Valid kind) : s.next.Valid kind := by
  have hpos := List.length_pos_iff.mpr h.stocked
  refine h.select ?_
  split
  · exact hpos
  · exact Nat.mod_lt _ hpos

theorem Valid.previous (h : s.Valid kind) : s.previous.Valid kind := by
  have hpos := List.length_pos_iff.mpr h.stocked
  refine h.select ?_
  split
  · exact Nat.sub_lt hpos Nat.one_pos
  · exact Nat.mod_lt _ hpos

theorem Valid.highlight (h : s.Valid kind) (index : Nat) : (s.highlight index).Valid kind := by
  rw [Suggestions.highlight]
  split
  · rename_i hlt
    exact h.select hlt
  · exact h

/-! ### Turning the highlight -/

/-- Move a highlight on by some steps, around the end. -/
def turned (s : Suggestions α) (steps : Nat) : Suggestions α :=
  { s with selected := s.selected.map fun i => (i + steps) % s.candidates.length }

theorem turned_turned (s : Suggestions α) (m n : Nat) :
    (s.turned m).turned n = s.turned (m + n) := by
  simp only [turned, Option.map_map, Function.comp_def, Nat.mod_add_mod, Nat.add_assoc]

/-- Full turns bring the highlight back. -/
theorem turned_of_dvd (h : s.Valid kind) (hn : s.candidates.length ∣ n) : s.turned n = s := by
  obtain ⟨turns, rfl⟩ := hn
  have hselected : (s.selected.map fun i =>
      (i + s.candidates.length * turns) % s.candidates.length) = s.selected := by
    cases hi : s.selected with
    | none => rfl
    | some i =>
        rw [Option.map_some, Nat.add_mul_mod_self_left, Nat.mod_eq_of_lt (h.selected_lt i hi)]
  rw [turned, hselected]

theorem Valid.turned (h : s.Valid kind) (n : Nat) : (s.turned n).Valid kind := by
  refine valid_of h.stocked (fun i hi => ?_) h.kind_eq
  obtain ⟨_, -, rfl⟩ := Option.map_eq_some_iff.mp hi
  exact Nat.mod_lt _ (List.length_pos_iff.mpr h.stocked)

theorem next_eq_turned (h : s.selected = some i) : s.next = s.turned 1 := by
  rw [next, turned, h]
  rfl

theorem previous_eq_turned (h : s.selected = some i) (hstocked : s.candidates ≠ []) :
    s.previous = s.turned (s.candidates.length - 1) := by
  have hpos := List.length_pos_iff.mpr hstocked
  have hstep : i + s.candidates.length - 1 = i + (s.candidates.length - 1) := by omega
  rw [previous, turned, h]
  dsimp only
  rw [hstep, Option.map_some]

end Suggestions

namespace Completion

variable {src : Sources} {state : Completion} {chord : Chord} {n d : Nat}

/-- What can happen to a popup; each time the sources may be others. -/
inductive Operation where
  | update (src : Sources) (query : Option Query)
  | key (src : Sources) (chord : Chord) (cursor : Position)
  | hover (index : Nat)
  | choose (src : Sources) (index : Nat) (cursor : Position)
  | close

/-- The state of a popup after an operation. -/
def perform (state : Completion) : Operation → Completion
  | .update src query => state.update src query
  | .key src chord cursor => (state.onKey src chord cursor).1
  | .hover index => state.hover index
  | .choose src index cursor => (state.choose src index cursor).1
  | .close => state.closeIf true

/-- The state of a popup after some operations, one after the other. -/
def performAll (state : Completion) (ops : List Operation) : Completion := ops.foldl perform state

/-- An open popup offers valid suggestions for its kind of query. -/
def Valid : Completion → Prop
  | idle => True
  | snippets found => found.Valid .snippet
  | symbols found => found.Valid .symbol

/-- Change the suggestions of an open popup, of whichever kind they are. -/
def changed (f : {α : Type} → Suggestions α → Suggestions α) : Completion → Completion
  | idle => idle
  | snippets found => snippets (f found)
  | symbols found => symbols (f found)

theorem Valid.changed {f : {α : Type} → Suggestions α → Suggestions α} (h : state.Valid)
    (hf : ∀ {α : Type} {s : Suggestions α} {kind : QueryKind}, s.Valid kind → (f s).Valid kind) :
    (state.changed f).Valid := by
  cases state with
  | idle => trivial
  | snippets found => exact hf h
  | symbols found => exact hf h

/-! ### Every operation keeps a popup valid -/

theorem onKey_up (state : Completion) (src : Sources) (cursor : Position)
    (h : chord.key = .up) :
    (state.onKey src chord cursor).1 = state.changed Suggestions.previous := by
  cases state with
  | idle => rfl
  | snippets found => simp only [onKey, snippetKey, h, changed]
  | symbols found => simp only [onKey, symbolKey, h, changed]

theorem onKey_down (state : Completion) (src : Sources) (cursor : Position)
    (h : chord.key = .down) :
    (state.onKey src chord cursor).1 = state.changed Suggestions.next := by
  cases state with
  | idle => rfl
  | snippets found => simp only [onKey, snippetKey, h, changed]
  | symbols found => simp only [onKey, symbolKey, h, changed]

/-- No other key moves the highlight. -/
theorem onKey_stays (state : Completion) (src : Sources) (cursor : Position)
    (hup : chord.key ≠ .up) (hdown : chord.key ≠ .down) :
    (state.onKey src chord cursor).1 = idle ∨ (state.onKey src chord cursor).1 = state := by
  cases state with
  | idle => exact Or.inl rfl
  -- Completing a snippet closes the popup only if its script fails.
  | snippets found => grind [onKey, snippetKey, completeSnippet]
  | symbols found => grind [onKey, symbolKey, closeIf]

theorem hover_eq (state : Completion) (index : Nat) :
    state.hover index = state.changed (·.highlight index) := by
  cases state <;> rfl

/-- A click closes the popup, or it is off the candidates. -/
theorem choose_stays (state : Completion) (src : Sources) (index : Nat) (cursor : Position) :
    (state.choose src index cursor).1 = idle ∨ (state.choose src index cursor).1 = state := by
  cases state with
  | idle => exact Or.inl rfl
  | snippets found => grind [choose]
  | symbols found => grind [choose]

theorem valid_idle : idle.Valid := trivial

theorem Valid.of_stays {later : Completion} (h : state.Valid)
    (hstays : later = idle ∨ later = state) : later.Valid := by
  rcases hstays with rfl | rfl
  · exact valid_idle
  · exact h

/-- Whatever popup was there, the one for the query at the cursor is valid. -/
theorem valid_update (src : Sources) (state : Completion) (query : Option Query) :
    (state.update src query).Valid := by
  cases query with
  | none => exact valid_idle
  | some q =>
      by_cases hoffers : Offers src q
      · cases hkind : q.kind with
        | snippet =>
            simp only [Offers, hkind] at hoffers
            rw [update_snippets hkind hoffers]
            refine Suggestions.valid_of hoffers (fun i hi => ?_) hkind
            -- The highlight is on the name typed in full, or where it was before.
            rcases Option.or_eq_some_iff.mp hi with hexact | ⟨-, hkept⟩
            · exact (List.findIdx?_eq_some_iff_getElem.mp hexact).1
            · exact Suggestions.surviving_lt hkept
        | symbol =>
            simp only [Offers, hkind] at hoffers
            rw [update_symbols hkind hoffers]
            exact Suggestions.valid_of hoffers (fun i => Suggestions.surviving_lt) hkind
      · have hidle : state.update src (some q) = idle :=
          (update_eq_idle_iff src state (some q)).mpr fun p hp => Option.some.inj hp ▸ hoffers
        rw [hidle]
        exact valid_idle

theorem Valid.onKey (h : state.Valid) (src : Sources) (chord : Chord) (cursor : Position) :
    (state.onKey src chord cursor).1.Valid := by
  by_cases hup : chord.key = .up
  · rw [onKey_up state src cursor hup]
    exact h.changed Suggestions.Valid.previous
  by_cases hdown : chord.key = .down
  · rw [onKey_down state src cursor hdown]
    exact h.changed Suggestions.Valid.next
  exact h.of_stays (onKey_stays state src cursor hup hdown)

theorem Valid.perform (h : state.Valid) (op : Operation) : (state.perform op).Valid := by
  cases op with
  | update src query => exact valid_update src state query
  | key src chord cursor => exact h.onKey src chord cursor
  | hover index =>
      rw [Completion.perform, hover_eq]
      exact h.changed fun hs => hs.highlight index
  | choose src index cursor => exact h.of_stays (choose_stays state src index cursor)
  | close => exact valid_idle

theorem valid_performAll (ops : List Operation) (h : state.Valid) :
    (state.performAll ops).Valid := by
  induction ops generalizing state with
  | nil => exact h
  | cons op ops ih => exact ih (h.perform op)

/-! ### Presses of the arrows -/

/-- The number of candidates that a popup offers. -/
def count : Completion → Nat
  | idle => 0
  | snippets found => found.candidates.length
  | symbols found => found.candidates.length

/-- Move the highlight of a popup on by some steps, around the end. -/
def turned (state : Completion) (steps : Nat) : Completion := state.changed (·.turned steps)

theorem turned_turned (state : Completion) (m n : Nat) :
    (state.turned m).turned n = state.turned (m + n) := by
  cases state with
  | idle => rfl
  | snippets found => exact congrArg snippets (found.turned_turned m n)
  | symbols found => exact congrArg symbols (found.turned_turned m n)

theorem turned_of_dvd (h : state.Valid) (hn : state.count ∣ n) : state.turned n = state := by
  cases state with
  | idle => rfl
  | snippets found => exact congrArg snippets (Suggestions.turned_of_dvd h hn)
  | symbols found => exact congrArg symbols (Suggestions.turned_of_dvd h hn)

theorem count_turned (state : Completion) (n : Nat) : (state.turned n).count = state.count := by
  cases state <;> rfl

theorem isSome_selected?_turned (state : Completion) (n : Nat) :
    (state.turned n).selected?.isSome = state.selected?.isSome := by
  cases state with
  | idle => rfl
  | snippets found => exact Option.isSome_map
  | symbols found => exact Option.isSome_map

/-- A popup of some candidates, one of which is highlighted. -/
structure Highlights (state : Completion) (n : Nat) : Prop where
  valid : state.Valid
  count_eq : state.count = n
  selected : state.selected?.isSome

theorem Highlights.count_pos (h : state.Highlights n) : 0 < n := by
  obtain ⟨hvalid, rfl, hselected⟩ := h
  cases state with
  | idle => cases hselected
  | snippets found => exact List.length_pos_iff.mpr hvalid.stocked
  | symbols found => exact List.length_pos_iff.mpr hvalid.stocked

theorem Highlights.turned (h : state.Highlights n) (steps : Nat) :
    (state.turned steps).Highlights n :=
  ⟨h.valid.changed fun hs => hs.turned steps, by rw [count_turned, h.count_eq],
    by rw [isSome_selected?_turned, h.selected]⟩

/-- Changes that agree about valid suggestions with a highlight agree about such a popup. -/
theorem Highlights.changed_congr {f g : {α : Type} → Suggestions α → Suggestions α}
    (h : state.Highlights n)
    (hfg : ∀ {α : Type} {s : Suggestions α} {kind : QueryKind} {i : Nat}, s.Valid kind →
      s.candidates.length = n → s.selected = some i → f s = g s) :
    state.changed f = state.changed g := by
  obtain ⟨hvalid, hcount, hselected⟩ := h
  obtain ⟨i, hi⟩ := Option.isSome_iff_exists.mp hselected
  cases state with
  | idle => rfl
  | snippets found => exact congrArg snippets (hfg hvalid hcount hi)
  | symbols found => exact congrArg symbols (hfg hvalid hcount hi)

/-- An operation is a press of a key, with any modifiers. -/
def Operation.Presses (key : Key) : Operation → Prop
  | .key _ chord _ => chord.key = key
  | _ => False

/-- An operation turns the highlight among `n` candidates by `d` steps. -/
def Operation.Turns (n d : Nat) (op : Operation) : Prop :=
  ∀ state : Completion, state.Highlights n → state.perform op = state.turned d

theorem turns_down {op : Operation} (h : op.Presses .down) (n : Nat) : op.Turns n 1 := by
  intro state hstate
  cases op with
  | key src chord cursor =>
      rw [perform, onKey_down state src cursor h]
      exact hstate.changed_congr fun _ _ hi => Suggestions.next_eq_turned hi
  | update | hover | choose | close => exact h.elim

theorem turns_up {op : Operation} (h : op.Presses .up) (n : Nat) : op.Turns n (n - 1) := by
  intro state hstate
  cases op with
  | key src chord cursor =>
      rw [perform, onKey_up state src cursor h]
      exact hstate.changed_congr fun hs hlength hi => by
        rw [Suggestions.previous_eq_turned hi hs.stocked, hlength]
  | update | hover | choose | close => exact h.elim

/-- Turns add up. -/
theorem performAll_of_turns {ops : List Operation} (hops : ∀ op ∈ ops, op.Turns n d)
    (h : state.Highlights n) : state.performAll ops = state.turned (ops.length * d) := by
  induction ops generalizing state with
  | nil =>
      rw [List.length_nil, Nat.zero_mul]
      exact (turned_of_dvd h.valid (Nat.dvd_zero _)).symm
  | cons op ops ih =>
      obtain ⟨hop, hrest⟩ := List.forall_mem_cons.mp hops
      have hlater := ih hrest (h.turned d)
      rw [← hop state h, hop state h, turned_turned] at hlater
      rw [List.length_cons, Nat.succ_mul, Nat.add_comm, ← hlater]
      show (state.perform op).performAll ops = _
      rw [hop state h]

/-- As many turns of one kind as there are candidates bring the highlight back. -/
theorem performAll_all_around {ops : List Operation} (hops : ∀ op ∈ ops, op.Turns n d)
    (hlength : ops.length = n) (h : state.Highlights n) : state.performAll ops = state := by
  rw [performAll_of_turns hops h]
  exact turned_of_dvd h.valid (by rw [h.count_eq, hlength]; exact Nat.dvd_mul_right n d)

/-- Up undoes down: together they are a full turn. -/
theorem performAll_down_up {down up : Operation} (hdown : down.Presses .down)
    (hup : up.Presses .up) (h : state.Highlights n) : state.performAll [down, up] = state := by
  show (state.perform down).perform up = state
  rw [turns_down hdown n state h, turns_up hup n _ (h.turned 1), turned_turned]
  have hfull : 1 + (n - 1) = n := Nat.add_sub_of_le h.count_pos
  rw [hfull]
  exact turned_of_dvd h.valid (h.count_eq ▸ Nat.dvd_refl _)

/-- **The highlight of a popup is always on a candidate.**  Whatever is done to a popup, while it
is open it has candidates, its highlight is on one of them, its query is of its kind, and a choice
takes a candidate.  If one of `n` candidates is highlighted, it still is after `n` presses of the
arrow down, after `n` presses of the arrow up, and after one of each. -/
theorem highlight_stays_valid (ops : List Operation) :
    let state := idle.performAll ops
    state.Valid ∧ ∀ i, state.selected? = some i →
      (∀ downs : List Operation, downs.length = state.count → (∀ op ∈ downs, op.Presses .down) →
        state.performAll downs = state) ∧
      (∀ ups : List Operation, ups.length = state.count → (∀ op ∈ ups, op.Presses .up) →
        state.performAll ups = state) ∧
      ∀ down up : Operation, down.Presses .down → up.Presses .up →
        state.performAll [down, up] = state := by
  intro state
  have hvalid : state.Valid := valid_performAll ops valid_idle
  refine ⟨hvalid, fun i hi => ?_⟩
  have hstate : state.Highlights state.count := ⟨hvalid, rfl, Option.isSome_of_eq_some hi⟩
  refine ⟨fun downs hlength hdowns => ?_, fun ups hlength hups => ?_, fun down up hdown hup => ?_⟩
  · exact performAll_all_around (fun op hop => turns_down (hdowns op hop) _) hlength hstate
  · exact performAll_all_around (fun op hop => turns_up (hups op hop) _) hlength hstate
  · exact performAll_down_up hdown hup hstate

/-- The pointer leaves the highlight where it is when it is off two snippets, and two presses of
an arrow bring it back. -/
theorem two_snippets_gone_around :
    let fraction : Snippet := { Snippet.standard with name := "frac".toList }
    let framed : Snippet := { Snippet.standard with name := "frame".toList }
    let src : Sources := ⟨[fraction, framed], .empty, fun _ _ => .ok [], true⟩
    let query : Query := ⟨.snippet, "fr".toList, none, ⟨0, 0⟩⟩
    let press (key : Key) : Operation := .key src (.plain key) ⟨0, 3⟩
    let state := idle.performAll [.update src (some query), press .up, .hover 2]
    state = snippets ⟨query, [fraction, framed], some 1⟩ ∧
      state.performAll [press .down, press .down] = state ∧
      state.performAll [press .up, press .up] = state ∧
      state.performAll [press .down, press .up] = state := by
  intro fraction framed src query press state
  have hstate : state = snippets ⟨query, [fraction, framed], some 1⟩ := by decide +kernel
  have hcount : 2 = state.count := (congrArg count hstate).symm
  have hpresses (key : Key) : ∀ op ∈ [press key, press key], op.Presses key :=
    List.forall_mem_cons.mpr ⟨rfl, List.forall_mem_singleton.mpr rfl⟩
  obtain ⟨-, hselected⟩ := highlight_stays_valid [.update src (some query), press .up, .hover 2]
  obtain ⟨hdowns, hups, hboth⟩ := hselected 1 (congrArg selected? hstate)
  exact ⟨hstate, hdowns _ hcount (hpresses .down), hups _ hcount (hpresses .up),
    hboth _ _ rfl rfl⟩

end Completion

end MathTyping
