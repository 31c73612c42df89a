/-
# What a scan reports can be removed

A source that cannot be read is scanned for imports, and its imports can be put into comments.  The scan and
the edit have searches of their own: one reads any string, the other looks for the package in it.  When the
package is what the scan has read, a static import of the scan is a statement for the edit
(`isSome_importStatement`).

That alone does not say that the edit finds the statement.  A find that starts earlier may cover its place;
but then there is that find (`countFound_pos_of_find`).

Dynamic imports are different.  The scan reports `import('m')`, and no search of the edit looks for it.
-/
import PackageRefs.Proofs.Reference.Scan
import PackageRefs.Proofs.Removal.LastResort

namespace PackageRefs

open PackageRefs.Text

/-! ## 1. One place -/

/-- A string that the scan reads holds itself. -/
theorem isSome_quoted?_of_quotedText? {text source rest : List Char}
    (h : quotedText? text = some (source, rest)) : (quoted? source text).isSome := by
  obtain ⟨q, d, rfl, hquote, hclose, -, -⟩ := quotedText?_eq_some_iff.mp h
  have hclosing : enclosing?.closing? isUnquoted isQuote source (source ++ d :: rest) = some rest := by
    unfold enclosing?.closing?
    rw [if_pos (List.isPrefixOf_iff_prefix.mpr (List.prefix_append ..)), List.drop_left,
      List.dropWhile_cons_of_neg (by simp [isUnquoted_of_isQuote hclose])]
    exact if_pos hclose
  rw [quoted?, if_pos hquote]
  exact isSome_enclosing? hclosing _

/-- A match without a parenthesis behind `import` is a statement with the string in it. -/
theorem isSome_importStatement {before : Option Char} {text source : List Char} {n : Nat}
    (h : importFinder before text = some (source, n))
    (hstatic : dynamicSource? (text.take n) = none) :
    (importStatement source before text).isSome := by
  obtain ⟨hstarts, opened, rest, hopened, hquoted, rfl⟩ := importFinder_eq_some h
  have himport : importSource? text = some opened := by
    refine hopened.resolve_right fun hdynamic => ?_
    -- the parenthesis stands before the string, and so in the match
    obtain ⟨w, r, rfl, hw, rfl⟩ := dynamicSource?_eq_some_iff.mp hdynamic
    obtain ⟨q, d, hr, -⟩ := quotedText?_eq_some_iff.mp hquoted
    obtain ⟨v, hv⟩ := afterBlanks_suffix r
    have htext : "import".toList ++ (w ++ '(' :: r) =
        "import".toList ++ (w ++ '(' :: (v ++ q :: (source ++ [d]))) ++ rest := by
      rw [← hv, hr]
      simp
    have hmatch : dynamicSource? ("import".toList ++ (w ++ '(' :: (v ++ q :: (source ++ [d])))) =
        some (afterBlanks (v ++ q :: (source ++ [d]))) :=
      dynamicSource?_eq_some_iff.mpr ⟨w, _, rfl, hw, rfl⟩
    rw [htext, List.length_append, Nat.add_sub_cancel, List.take_left, hmatch] at hstatic
    cases hstatic
  obtain ⟨r, hr⟩ := Option.isSome_iff_exists.mp (isSome_quoted?_of_quotedText? hquoted)
  unfold importStatement
  rw [if_pos hstarts, himport]
  simp [hr]

/-! ## 2. The whole source -/

/-- The scan of a source reports an import of the name, and has it from a match without a parenthesis behind
`import`. -/
structure ScansStaticImport (source name : String) : Prop where
  reported : ⟨.import, name⟩ ∈ scanReferences source
  exists_match : ∃ s, .found name.toList s ∈ segments importFinder source.toList ∧
    dynamicSource? s = none

/-- The first of the three searches finds no more than all of them. -/
theorem countFound_le_count_commentOutReferences (source package : String) :
    countFound (segments (importStatement package.toList) source.toList) ≤
      (commentOutReferences source package).count := by
  simp only [commentOutReferences, statementFinders, List.foldl_cons, List.foldl_nil, commentOutAll]
  omega

theorem count_pos_of_scansStaticImport {source name : String} (h : ScansStaticImport source name) :
    0 < (commentOutReferences source name).count := by
  obtain ⟨s, hmem, hstatic⟩ := h.exists_match
  obtain ⟨pre, rest, n, hsplit, hfind, rfl⟩ := exists_find_of_mem hmem
  have hfound := isSome_importStatement hfind hstatic
  have hrest : rest ≠ [] := by
    rintro rfl
    have hnone : importStatement name.toList (pre.getLast?.or none) [] = none := by
      unfold importStatement
      split <;> rfl
    rw [hnone] at hfound
    cases hfound
  have hcount := countFound_pos_of_find hrest hfound
  rw [← hsplit] at hcount
  exact Nat.lt_of_lt_of_le hcount (countFound_le_count_commentOutReferences source name)

/-- Where statements can be put into comments, there is a change of the source. -/
theorem Change.exists_first?_of_commented {request : RemovalRequest} {source : String}
    (h : 0 < (commentOutReferences source request.package).count) :
    ∃ change, Change.first? request source = some change := by
  unfold Change.first?
  split
  · exact ⟨_, rfl⟩
  · rw [Change.ofEdited?_eq_some_iff.mpr ⟨h, rfl⟩]
    exact ⟨_, rfl⟩

/-- **A static import that the scan reports can be removed.**  For every source and every name:

* putting statements into comments finds at least one that refers to the name;
* so a forced removal of the name from any file with that source, on any machine, removes something, or the
  disk fails.  Whether the source can be read as a script does not matter, and neither does being
  aggressive. -/
theorem staticImport_removable {source name : String} (h : ScansStaticImport source name) :
    0 < (commentOutReferences source name).count ∧
      ∀ (file : String) (aggressive : Bool) (m : Machine), m.disk.readSource file = .ok source →
        (∃ strategy count before after,
          ((RemovalRequest.forced file name aggressive).run m).1 =
            .ok (.removed strategy count before after)) ∨
        ∃ e, ((RemovalRequest.forced file name aggressive).run m).1 = .error e ∧ e.OfFile := by
  have hcount := count_pos_of_scansStaticImport h
  refine ⟨hcount, fun file aggressive m hsource => ?_⟩
  have hpackage : 0 < (commentOutReferences source
      (RemovalRequest.forced file name aggressive).package).count := hcount
  obtain ⟨change, hfirst⟩ := Change.exists_first?_of_commented hpackage
  rw [RemovalRequest.run_eq_runForced rfl hsource]
  rcases RemovalRequest.runForced_of_first? hfirst m with hmade | hfails
  · exact .inl ⟨_, _, _, _, hmade⟩
  · exact .inr hfails

namespace Example

/-- A source that cannot be read as a script, with a name that would be a pattern of its own. -/
def unbalanced : String := "import{x}from'a.b*';\n\x7d"

theorem unbalanced_scanned : ScansStaticImport unbalanced "a.b*" where
  reported := by decide +kernel
  exists_match := ⟨"import{x}from'a.b*'".toList, List.mem_of_getElem? (i := 0) rfl, by decide +kernel⟩

/-- The import is put into a comment. -/
theorem unbalanced_commented :
    ScansStaticImport unbalanced "a.b*" ∧ 0 < (commentOutReferences unbalanced "a.b*").count ∧
      ∃ strategy count before after,
        ((RemovalRequest.forced "a.js" "a.b*" false).run (Machine.holding "a.js" unbalanced)).1 =
          .ok (.removed strategy count before after) := by
  obtain ⟨hcount, hrun⟩ := staticImport_removable unbalanced_scanned
  refine ⟨unbalanced_scanned, hcount, ?_⟩
  refine (hrun "a.js" false _ (by decide +kernel)).resolve_right ?_
  rintro ⟨e, herror, -⟩
  have hremoved : ((RemovalRequest.forced "a.js" "a.b*" false).run
      (Machine.holding "a.js" unbalanced)).1 = .ok (.removed .commentedOut 1 22 37) := by
    decide +kernel
  rw [hremoved] at herror
  cases herror

end Example

end PackageRefs
