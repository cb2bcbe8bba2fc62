import Mathlib.Data.List.Infix
import Mathlib.Tactic.Ext

/-!
# UUIDs in texts

The text of a UUID has a length of its own (`append_text_inj`) and no letter above `f`, so that it
is read back from the start of a longer text, and is told from `None` there.
-/

namespace NbeAdvisor

/-- The text of a `UUIDField`. -/
@[ext]
structure Uuid where
  text : String
  length_text : text.length = 36
  mem_text : ∀ c ∈ text.toList, c = '-' ∨ c.isDigit ∨ c ∈ ['a', 'b', 'c', 'd', 'e', 'f']
  deriving DecidableEq

instance : Inhabited Uuid :=
  ⟨"00000000-0000-0000-0000-000000000000", by decide, by simp⟩

/-- A text of known length is read back from the start of a longer one. -/
theorem append_text_inj {a b c d : String} (hlen : a.length = b.length) (h : a ++ c = b ++ d) :
    a = b ∧ c = d := by
  have hlist := congrArg String.toList h
  rw [String.toList_append, String.toList_append] at hlist
  have hlen' : a.toList.length = b.toList.length := by
    rw [String.length_toList, String.length_toList, hlen]
  obtain ⟨hab, hcd⟩ := List.append_inj hlist hlen'
  exact ⟨String.toList_inj.1 hab, String.toList_inj.1 hcd⟩

/-- A text is a prefix of another. -/
def under (folder text : String) : Bool := folder.toList.isPrefixOf text.toList

/-- To be under a folder is to begin with it. -/
theorem under_iff {folder text : String} :
    under folder text = true ↔ ∃ rest, text = folder ++ rest := by
  rw [under, List.isPrefixOf_iff_prefix]
  constructor
  · rintro ⟨rest, hrest⟩
    exact ⟨String.ofList rest, String.toList_injective (by simp [String.toList_append, hrest])⟩
  · rintro ⟨rest, rfl⟩
    exact ⟨rest.toList, (String.toList_append ..).symm⟩

end NbeAdvisor
