import Graft.Proofs.Splice.Recording
import Mathlib.Data.List.Basic

/-!
# Nothing of a leaf is lost

The search of a leaf and the literal text that is kept move through the text at
different speeds: the search goes on behind the start of a rejected match, and
one character on after a match of the empty text, while the literal text goes on
where the last accepted match ended. Still the text is cut into the accepted
matches and the literal text around them, so that no character is lost, repeated
or moved.

All that is needed has been proved of scans: a leaf has one, its matches are
parts of the text in order, and the text is in pieces between them
(`Leaf.Scan.inPieces`). This module states it of `splice_leaf` in terms of its
calls, for any pattern, any replacer with any state, and texts of all
characters. The offsets of the pieces are those that the calls were told, so the
partition is the one that a replacer could have computed from what it has seen.

Main statements:
- `Rule.spliceLeaf_partition`: what the splice of a leaf gives, in terms of the
  calls of the replacer.
-/

namespace Graft

variable {σ : Type}

/-- Of all answers only a rejection puts nothing in place of the match. -/
theorem Replacement.toNodes_eq_none_iff (replacement : Replacement) :
    replacement.toNodes = none ↔ replacement = .reject := by
  cases replacement <;> simp [toNodes]

open Splice in
/-- The splice of a leaf gives nothing exactly if all of its calls are rejected.
Else the text is made of literal texts and accepted matches in turn, which are
those of the calls, at the offsets that the replacer was told, and the nodes are
those for the literal texts and those of the answers, in turn. The calls are
those of this splice, and no fuel bounds them. -/
theorem Rule.spliceLeaf_partition (rule : Rule σ) (text : String) (stack : List Node) (state : σ) :
    let calls := rule.callsOn text stack state
    let spliced := rule.spliceLeaf text stack state
    rule.recording.spliceLeaf text stack (state, []) = (spliced.1, spliced.2, calls) ∧
      (∀ fuel, text.toList.length < fuel →
        (rule.leaf text.toList stack).spliceFrom fuel 0 0 state = spliced) ∧
      (spliced.1 = none ↔ ∀ call ∈ calls, call.answer = .reject) ∧
      ∀ nodes, spliced.1 = some nodes →
        ∃ pieces last, text.toList = pieces.flatMap Piece.text ++ last ∧
          nodes = pieces.flatMap Piece.output ++ fragment last ∧
          calls.filterMap Call.replaced? = Piece.replaced 0 pieces := by
  intro calls spliced
  obtain ⟨after, hscan, hfound, -, hsplice⟩ := rule.exists_scan_callsOn text stack state
  have hleaf := rule.recording.findsParts_leaf text.toList stack
  -- the calls are recorded by a rule that does the same, and the splice has fuel enough
  refine ⟨rule.spliceLeaf_recording text stack state [],
    fun fuel h => rule.spliceFrom_eq_spliceLeaf text stack state h, ?_, ?_⟩
  · rw [hsplice, assemble_eq_none_iff, List.forall_mem_map]
    exact forall₂_congr fun call _ => call.answer.toNodes_eq_none_iff
  · intro nodes hsome
    rw [hsplice] at hsome
    obtain ⟨pieces, last, htext, hnodes, hpieces⟩ :=
      hscan.inPieces hleaf (List.nil_append _).symm (Nat.le_refl 0) hsome
    refine ⟨pieces, last, htext, hnodes, ?_⟩
    rw [← Text.byteLength_nil, ← hpieces, List.filterMap_map]
    refine List.filterMap_congr fun call hmem => ?_
    rw [Function.comp_apply, Call.replaced?, Call.answered, replaced?, Found.index, Found.value,
      congrArg Found.input (hfound call hmem)]
    rfl

end Graft
