/-!
# Lines

A text without a line break is one line. A list of lines is written with a line
break behind each of them.
-/

namespace StyleRules
namespace Text

def OneLine (text : String) : Prop :=
  '\n' ∉ text.toList

instance (text : String) : Decidable (OneLine text) :=
  inferInstanceAs (Decidable ('\n' ∉ text.toList))

def unlines (lines : List String) : String :=
  String.join (lines.map fun line => line ++ "\n")

theorem oneLine_append {s t : String} : OneLine (s ++ t) ↔ OneLine s ∧ OneLine t := by
  simp [OneLine, String.toList_append]

theorem oneLine_join {texts : List String} :
    OneLine (String.join texts) ↔ forall text, text ∈ texts → OneLine text := by
  simp [OneLine, String.toList_join]

theorem oneLine_intercalate {separator : String} {texts : List String}
    (separate : OneLine separator) (whole : forall text, text ∈ texts → OneLine text) :
    OneLine (separator.intercalate texts) := by
  induction texts with
  | nil =>
      exact nofun
  | cons text texts ih =>
      rcases List.forall_mem_cons.mp whole with ⟨first, others⟩
      cases texts with
      | nil =>
          rwa [String.intercalate_singleton]
      | cons next texts =>
          rw [String.intercalate_cons_cons, oneLine_append, oneLine_append]
          exact ⟨⟨first, separate⟩, ih others⟩

theorem unlines_cons (line : String) (lines : List String) :
    unlines (line :: lines) = line ++ "\n" ++ unlines lines :=
  String.join_cons

theorem unlines_append (earlier later : List String) :
    unlines (earlier ++ later) = unlines earlier ++ unlines later := by
  rw [unlines, List.map_append, String.join_append]
  rfl

theorem toList_unlines (lines : List String) :
    (unlines lines).toList = lines.flatMap fun line => line.toList ++ ['\n'] := by
  simp [unlines, String.toList_join, List.flatMap_map, String.toList_append]

end Text
end StyleRules
