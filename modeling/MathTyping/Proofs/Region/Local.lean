import MathTyping.Proofs.Buffer.SourceOffsets
import MathTyping.Proofs.Region.Extent

/-!
# Positions local to a region

The content of a region is a text of its own, with lines and columns from its start.  A
position of the document inside the region has a local one, and the bytes before it in the
document are those before the region and those before the local position in the content
(`Stands.exists_local`).  This holds inside a surrogate pair as well: the position and its local
one name the same cut.
-/

namespace MathTyping

namespace Region

open Position (origin Names)

variable {r : Region} {b : Buffer} {p q : Position} {pre post x : Text}

/-! ### Local positions -/

theorem toLocal?_ofLocal (r : Region) (q : Position) : r.toLocal? (r.ofLocal q) = some q := by
  obtain ⟨line, column⟩ := q
  by_cases hline : line = 0
  · simp [toLocal?, ofLocal, hline]
  · simp [toLocal?, ofLocal, hline]

theorem ofLocal_origin (r : Region) : r.ofLocal origin = r.start := by
  simp [ofLocal, origin]

theorem ofLocal_right (r : Region) (q : Position) (delta : Nat) :
    r.ofLocal (q.right delta) = (r.ofLocal q).right delta := by
  by_cases hline : q.line = 0
  · simp [ofLocal, Position.right, hline]
    omega
  · simp [ofLocal, Position.right, hline]

/-- Writing a text leads to the same place, locally and in the document. -/
theorem ofLocal_advance (r : Region) (q : Position) (t : Text) :
    r.ofLocal (q.advance t) = (r.ofLocal q).advance t := by
  induction t generalizing q with
  | nil => rfl
  | cons c t ih =>
      by_cases hc : c = '\n'
      · have hfeed : r.ofLocal ⟨q.line + 1, 0⟩ = ⟨(r.ofLocal q).line + 1, 0⟩ := by
          simp [ofLocal]
          omega
        rw [Position.advance, Position.advance, if_pos hc, if_pos hc, ih, hfeed]
      · rw [Position.advance, Position.advance, if_neg hc, if_neg hc, ih, ofLocal_right]

/-- A position that names a cut from the start of the region has a local one that names the same
cut of the content. -/
theorem exists_toLocal? (h : Names r.start p x) :
    ∃ q, r.toLocal? p = some q ∧ Names origin q x := by
  cases h with
  | behind h =>
      refine ⟨origin.advance x, ?_, Names.behind rfl⟩
      rw [h, ← ofLocal_origin, ← ofLocal_advance, toLocal?_ofLocal]
  | inside init c hpre hwide h =>
      refine ⟨(origin.advance init).right 1, ?_, Names.inside init c hpre hwide rfl⟩
      rw [h, ← ofLocal_origin, ← ofLocal_advance, ← ofLocal_right, toLocal?_ofLocal]

namespace Stands

/-- A cut of the content is named from the start of the region as it is named in the
document. -/
theorem names_start (h : r.Stands b pre post) (hnames : Names origin p (pre ++ x)) :
    Names r.start p x := by
  rw [h.start]
  cases hnames with
  | behind hp => exact Names.behind (by rw [hp, Position.advance_append])
  | inside init c hpre hwide hp =>
      rcases List.eq_nil_or_concat x with rfl | ⟨more, d, rfl⟩
      · -- The document is not cut inside a pair where the region starts.
        have hlast := h.getLast?_pre
        rw [List.append_nil] at hpre
        rw [hpre, List.getLast?_concat] at hlast
        obtain rfl := Option.some.inj hlast
        contradiction
      · rw [List.concat_eq_append, ← List.append_assoc] at hpre
        obtain ⟨rfl, hd⟩ := List.append_inj' hpre rfl
        refine Names.inside more d List.concat_eq_append (List.singleton_inj.mp hd ▸ hwide) ?_
        rw [hp, Position.advance_append]

/-- The local position of a place in a region, and its bytes. -/
theorem exists_local (h : r.Stands b pre post) (hclamp : b.clamp p = p)
    (hp : r.contains p = true) :
    ∃ q, r.toLocal? p = some q ∧ b.toByte p = pre.bytes + r.content.offsetOf q := by
  obtain ⟨y, z, hcontent, hnames⟩ := h.exists_cut hp
  rw [hclamp] at hnames
  obtain ⟨q, hlocal, hq⟩ := exists_toLocal? (h.names_start hnames)
  have hcut : b.text = (pre ++ y) ++ (z ++ post) := by
    rw [h.text, hcontent]
    simp
  have hlocalCut : (Buffer.mk r.content).text = y ++ z := hcontent
  refine ⟨q, hlocal, ?_⟩
  rw [Buffer.toByte_of_names hcut hnames, Text.bytes_append,
    ← Buffer.toByte_of_names hlocalCut hq,
    ← Text.offsetOf_eq_toByte (Text.hasPlace_iff.mpr (Buffer.clamp_of_names hlocalCut hq))]

end Stands

end Region

end MathTyping
