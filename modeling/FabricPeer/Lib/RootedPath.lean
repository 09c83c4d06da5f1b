import Mathlib.Data.List.Basic
import Mathlib.Algebra.GroupWithZero.Nat

/-! # Paths from a root

`sep + strings.Join(words, sep)` writes the words as a path from the root, `/a/b/c`. A path is
extended one word at a time, and for words without the separator it determines its words, also
behind a front of a fixed length. Nothing in this module refers to a particular program.
-/

namespace GoRun

set_option autoImplicit false

def rootedJoin (sep : Char) (words : List String) : String :=
  String.singleton sep ++ (String.singleton sep).intercalate words

variable {sep : Char}

theorem rootedJoin_singleton (w : String) : rootedJoin sep [w] = String.singleton sep ++ w := by
  rw [rootedJoin, String.intercalate_singleton]

theorem rootedJoin_append_singleton {words : List String} (hWords : words ≠ []) (w : String) :
    rootedJoin sep (words ++ [w]) = rootedJoin sep words ++ String.singleton sep ++ w := by
  rw [rootedJoin, rootedJoin, String.intercalate_append_of_ne_nil hWords (List.cons_ne_nil w []),
    String.intercalate_singleton]
  simp only [String.append_assoc]

theorem toList_rootedJoin (words : List String) :
    (rootedJoin sep words).toList = sep :: [sep].intercalate (words.map String.toList) := by
  rw [rootedJoin, String.toList_append, String.toList_intercalate, String.toList_singleton]
  rfl

theorem rootedJoin_inj {words words' : List String} (hWords : ∀ w ∈ words, sep ∉ w.toList)
    (hWords' : ∀ w ∈ words', sep ∉ w.toList) (hNe : words ≠ []) (hNe' : words' ≠ [])
    (h : rootedJoin sep words = rootedJoin sep words') : words = words' := by
  have hLists := congrArg String.toList h
  rw [toList_rootedJoin, toList_rootedJoin, List.cons.injEq] at hLists
  have hSplit := congrArg (List.splitOn sep) hLists.2
  rw [List.splitOn_intercalate sep (by simpa using hWords) (by simpa using hNe),
    List.splitOn_intercalate sep (by simpa using hWords') (by simpa using hNe')] at hSplit
  exact List.map_injective_iff.2 (fun _ _ => String.toList_inj.1) hSplit

theorem append_rootedJoin_inj {front front' : String} {words words' : List String}
    (hLength : front.length = front'.length) (hWords : ∀ w ∈ words, sep ∉ w.toList)
    (hWords' : ∀ w ∈ words', sep ∉ w.toList) (hNe : words ≠ []) (hNe' : words' ≠ [])
    (h : front ++ rootedJoin sep words = front' ++ rootedJoin sep words') :
    front = front' ∧ words = words' := by
  have hLists := congrArg String.toList h
  rw [String.toList_append, String.toList_append] at hLists
  obtain ⟨hFront, hRest⟩ :=
    List.append_inj hLists (by rw [String.length_toList, String.length_toList, hLength])
  exact ⟨String.toList_inj.1 hFront,
    rootedJoin_inj hWords hWords' hNe hNe' (String.toList_inj.1 hRest)⟩

end GoRun
