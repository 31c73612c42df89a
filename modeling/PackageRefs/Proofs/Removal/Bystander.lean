/-
# What removal leaves of other packages

Removal takes whole nodes: a variable with its pattern, a statement, a call with all its arguments.  A
reference to another package that stands in such a node goes with it.  Every other reference stays, as
removal looks at it and passes it over.

* `mentions_other_edit_iff`: what is left mentions another package exactly if removal comes to a
  reference to it.
* `other_mem_references_remove_iff`: the same for the exact removal of one package from a whole tree.

**References can stand in each other.**  In `Example.argument_swallowed` and `Example.pattern_swallowed`
the only reference to a package goes together with a reference to another one.
-/
import PackageRefs.Proofs.Reference.Agreement

namespace PackageRefs.Script.Tree

variable {goes other : String → Bool}

/-! ## 1. Nodes that name another package -/

/-- A node that names a package which does not go stays, wherever it stands. -/
theorem not_taken_of_names (hapart : ∀ request, other request = true → goes request = false)
    {t : Tree} (h : t.names other = true) (pos : Position) : t.taken goes pos = false := by
  have hsource : ∀ source? : Option String, source?.any other = true →
      source?.any goes = false := by
    rintro (_ | source) hother
    · rfl
    · exact hapart source hother
  rw [names_eq, Bool.or_eq_true] at h
  rcases h with himport | hrequire
  · rw [taken_of_imports (Option.isSome_of_any himport), hsource _ himport, Bool.and_false]
  · rw [taken_of_requires (Option.isSome_of_any hrequire), hsource _ hrequire, Bool.and_false]

/-! ## 2. Whole trees -/

/-- Removal comes to a reference to another package: the reference is in no node that goes. -/
def Spares (goes other : String → Bool) : Position → Tree → Prop :=
  Meets goes fun _ t => t.names other = true

/-- **What an edit leaves** mentions another package exactly if the edit spares a reference to it. -/
theorem mentions_other_edit_iff (hapart : ∀ request, other request = true → goes request = false)
    (pos : Position) (t : Tree) :
    (∃ u ∈ (edit goes pos t).1, Mentions other u) ↔ Spares goes other pos t := by
  simp only [mentions_iff_anyNode]
  refine anyNode_edit_iff (fun _ => rfl) (fun _ _ _ => rfl) (fun pos label span parts => ?_) pos t
  rw [names_edited]
  exact ⟨fun h => ⟨not_taken_of_names hapart h pos, h⟩, And.right⟩

/-- A node names a package in the exact sense if its own reference has the package's name. -/
theorem names_exact_iff {package : String} {t : Tree} :
    t.names (MatchMode.exact.test package) = true ↔ t.ownReference?.map (·.request) = some package := by
  simp [names, Option.any_eq_true]

/-- **Removal of one package leaves another** exactly if some reference to the other one stands in no
node that goes.  The nodes that go are the variables and the statements that are dropped, and the calls
that `void 0` takes the place of, each with all its parts. -/
theorem other_mem_references_remove_iff {removed package : String} (hne : package ≠ removed)
    (t : Tree) :
    package ∈ (t.remove (MatchMode.exact.accepts · removed)).1.references.map (·.request) ↔
      ∃ pos u, Reaches (MatchMode.exact.test removed) .elsewhere t pos u ∧
        u.ownReference?.map (·.request) = some package := by
  have hapart : ∀ request, MatchMode.exact.test package request = true →
      MatchMode.exact.test removed request = false := by
    intro request hrequest
    rw [MatchMode.test_exact] at hrequest
    exact Bool.eq_false_iff.mpr fun h => hne (hrequest.symm.trans (MatchMode.test_exact.mp h))
  calc package ∈ (t.remove (MatchMode.exact.test removed)).1.references.map (·.request)
    _ ↔ Mentions (MatchMode.exact.test package) (t.remove (MatchMode.exact.test removed)).1 :=
      mentions_exact_iff.symm
    _ ↔ ∃ u ∈ (edit (MatchMode.exact.test removed) .elsewhere t).1,
          Mentions (MatchMode.exact.test package) u := by simp [edit_elsewhere]
    _ ↔ Spares (MatchMode.exact.test removed) (MatchMode.exact.test package) .elsewhere t :=
      mentions_other_edit_iff hapart .elsewhere t
    _ ↔ _ := by simp only [Spares, Meets, names_exact_iff]

namespace Example

/-- The tree of a script. -/
def programOf (source : String) : Tree := (parse (Dialect.ofPath "a.js") source).program

/-- One reference goes with the call in which it stands, and the other one is spared. -/
theorem second_reference_spared :
    "b" ≠ "a" ∧
      ∃ pos u, Reaches (MatchMode.exact.test "a") .elsewhere
          (programOf "require('a', require('b')); f(require('b'))") pos u ∧
        u.ownReference?.map (·.request) = some "b" := by
  have hne : "b" ≠ "a" := by decide
  exact ⟨hne, (other_mem_references_remove_iff hne _).mp (by decide +kernel)⟩

/-- A call of `require` goes with its second argument, which is the only reference to another package. -/
theorem argument_swallowed :
    let t := programOf "require('a', require('b'))"
    "b" ∈ t.references.map (·.request) ∧
      "b" ∉ (t.remove (MatchMode.exact.accepts · "a")).1.references.map (·.request) := by
  decide +kernel

/-- A variable goes with its pattern, in which a default value refers to another package. -/
theorem pattern_swallowed :
    let t := programOf "const \x7b x = require('b') \x7d = require('a')"
    "b" ∈ t.references.map (·.request) ∧
      "b" ∉ (t.remove (MatchMode.exact.accepts · "a")).1.references.map (·.request) := by
  decide +kernel

end Example

end PackageRefs.Script.Tree
