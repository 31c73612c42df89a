/-
# Where detection and removal agree

Detection looks at every node of a tree, removal at the items of statement lists, at variables and at
expressions.  For a script that is searched through its tree the two are compared package by package.

* What is reported is what the tree mentions (`mem_references_iff`).
* What can be removed is what the tree exposes (`exists_removeStructurally_changed_iff`).
* What removal leaves behind is what the tree shelters (`mentions_remove_iff`).

As a tree mentions what it exposes and what it shelters, the two agree on a package, and removal leaves
nothing of it, exactly if the tree shelters no reference to it (`analyze_agrees_iff`).

**Where they do not agree.**  A call of `require` that is the whole of an optional chain is reported and
cannot be removed: `Example.optionalCall_disagrees`.
-/
import PackageRefs.Proofs.Removal.Structural
import PackageRefs.Reference.Analysis

namespace PackageRefs

open PackageRefs.Script

/-! ## 1. What is reported -/

theorem mem_withoutRepeats {a : String} (texts : List String) :
    a ∈ withoutRepeats texts ↔ a ∈ texts := by
  fun_induction withoutRepeats texts with
  | case1 b c r h ih => simp_all
  | case2 b c r h ih => simp_all
  | case3 => rfl

theorem mem_distinct {a : String} (texts : List String) : a ∈ distinct texts ↔ a ∈ texts := by
  rw [distinct, mem_withoutRepeats, List.mem_mergeSort]

variable {file source : String} {threshold : Nat}

/-- A script is searched through its tree if it does not look like a bundle and can be read. -/
theorem analyze_of_structural (h : (analyze file source threshold).detection = .structural) :
    (parse (Dialect.ofPath file) source).succeeded = true ∧
      (analyze file source threshold).references =
        distinct ((parse (Dialect.ofPath file) source).program.references.map (·.request)) := by
  unfold analyze at h ⊢
  dsimp only at h ⊢
  split at h
  · cases h
  · rename_i hbundled
    split at h
    · rename_i hsucceeded
      rw [if_neg hbundled, if_pos hsucceeded]
      exact ⟨hsucceeded, rfl⟩
    · cases h

/-- A tree mentions a package exactly if its name is the text of a reference. -/
theorem mentions_exact_iff {package : String} {t : Tree} :
    t.Mentions (MatchMode.exact.test package) ↔ package ∈ t.references.map (·.request) := by
  simp [Tree.Mentions]

/-- **What is reported** for a script that is searched through its tree is what the tree mentions. -/
theorem mem_references_iff (h : (analyze file source threshold).detection = .structural)
    (package : String) :
    package ∈ (analyze file source threshold).references ↔
      (parse (Dialect.ofPath file) source).program.Mentions (MatchMode.exact.test package) := by
  rw [(analyze_of_structural h).2, mem_distinct, mentions_exact_iff]

/-! ## 2. The comparison -/

/-- **Detection and removal agree** on a package exactly if the tree of the script shelters no
reference to it.  To agree means that the package is reported exactly if it can be removed, and that
the tree which is printed after a removal holds no reference to it. -/
theorem analyze_agrees_iff (h : (analyze file source threshold).detection = .structural)
    (package : String) :
    let parsed := parse (Dialect.ofPath file) source
    let edited := (parsed.program.remove (MatchMode.exact.accepts · package)).1
    ((package ∈ (analyze file source threshold).references ↔
        ∃ r, removeStructurally file source package .exact = .changed r) ∧
      (∀ r, removeStructurally file source package .exact = .changed r →
        r.code = print .spacious (Dialect.ofPath file) parsed.comments edited ∧
          ∀ reference ∈ edited.references, reference.request ≠ package)) ↔
      ¬Tree.Shelters (MatchMode.exact.accepts · package) .elsewhere parsed.program := by
  intro parsed edited
  -- an exact removal reads the script as detection does
  obtain ⟨hsucceeds, hread⟩ := readForRemoval_of_valid (analyze_of_structural h).1 .exact
  have hchanged : (∃ r, removeStructurally file source package .exact = .changed r) ↔
      Tree.Exposes (MatchMode.exact.test package) .elsewhere parsed.program := by
    rw [exists_removeStructurally_changed_iff, programRead, hread]
    exact and_iff_right hsucceeds
  have hreported := (mem_references_iff h package).trans (Tree.mentions_iff .elsewhere parsed.program)
  have hleft : (∀ reference ∈ edited.references, reference.request ≠ package) ↔
      ¬Tree.Shelters (MatchMode.exact.test package) .elsewhere parsed.program := by
    rw [← Tree.mentions_remove_iff, mentions_exact_iff, List.mem_map]
    push Not
    rfl
  constructor
  · rintro ⟨hagree, hnothing⟩ hshelters
    obtain ⟨r, hr⟩ := hagree.mp (hreported.mpr (.inr hshelters))
    exact hleft.mp (hnothing r hr).2 hshelters
  · intro hshelters
    refine ⟨hreported.trans (Iff.trans ?_ hchanged.symm), fun r hr => ⟨?_, hleft.mpr hshelters⟩⟩
    · exact or_iff_left hshelters
    · rw [(removeStructurally_eq_changed_iff.mp hr).2.2]
      simp only [textLeft, programLeft, programRead, hread]
      rfl

namespace Example

/-- A call of `require` before an optional access is reported, and removal leaves nothing of it. -/
theorem access_agrees :
    (analyze "a.js" "require('x')?.y" 0).detection = .structural ∧
      ("x" ∈ (analyze "a.js" "require('x')?.y" 0).references ↔
        ∃ r, removeStructurally "a.js" "require('x')?.y" "x" .exact = .changed r) := by
  have hstructural : (analyze "a.js" "require('x')?.y" 0).detection = .structural := by
    decide +kernel
  have hreached : ¬Tree.Shelters (MatchMode.exact.accepts · "x") .elsewhere
      (parse (Dialect.ofPath "a.js") "require('x')?.y").program := by decide +kernel
  exact ⟨hstructural, ((analyze_agrees_iff hstructural "x").mpr hreached).1⟩

/-- An optional call of `require` is found, and removal passes it over. -/
theorem optionalCall_disagrees :
    (analyze "a.js" "require?.('x')" 0).detection = .structural ∧
      ¬("x" ∈ (analyze "a.js" "require?.('x')" 0).references ↔
        ∃ r, removeStructurally "a.js" "require?.('x')" "x" .exact = .changed r) := by
  have hreported : "x" ∈ (analyze "a.js" "require?.('x')" 0).references := by decide +kernel
  have hunchanged : removeStructurally "a.js" "require?.('x')" "x" .exact = .unchanged := by
    decide +kernel
  refine ⟨by decide +kernel, fun hagree => ?_⟩
  obtain ⟨r, hr⟩ := hagree.mp hreported
  rw [hunchanged] at hr
  cases hr

end Example

end PackageRefs
