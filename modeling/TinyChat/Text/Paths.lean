import Mathlib.Data.List.Infix

/-! POSIX paths as texts: joining them as `std::filesystem` does and finding the file
they name where there are no symbolic links. -/
namespace TinyChat.Text

def isAbsolute (path : List Char) : Bool := path.head? = some '/'

/-- `operator/` of `std::filesystem::path`. -/
def joinPath (base path : List Char) : List Char :=
  if isAbsolute path then path
  else if base = [] ∨ base.getLast? = some '/' then base ++ path
  else base ++ '/' :: path

/-- The names between the separators, without those that stay where they are. -/
def components (path : List Char) : List (List Char) :=
  (path.splitOn '/').filter fun name => !name.isEmpty && name != ['.']

/-- Follow a name from a directory; the root is its own parent. -/
def enter (directory : List (List Char)) (name : List Char) : List (List Char) :=
  if name = ['.', '.'] then directory.dropLast else directory ++ [name]

/-- The names from the root to what an absolute path names. -/
def resolve (path : List Char) : List (List Char) := (components path).foldl enter []

/-- Component by component, the path lies under the root. -/
def Under (root path : List Char) : Prop := resolve root <+: resolve path

instance (root path : List Char) : Decidable (Under root path) :=
  inferInstanceAs (Decidable (_ <+: _))

variable {base path text : List Char} {directory names : List (List Char)}

@[simp] theorem components_nil : components [] = [] := rfl

theorem components_append_separator :
    components (base ++ '/' :: path) = components base ++ components path := by
  simp [components, List.splitOn_append_cons_self]

/-- A relative path goes on from the base. -/
theorem components_joinPath (relative : isAbsolute path = false) :
    components (joinPath base path) = components base ++ components path := by
  unfold joinPath
  rw [if_neg (by simp [relative])]
  split
  · rename_i separated
    rcases List.eq_nil_or_concat base with rfl | ⟨front, last, rfl⟩
    · simp
    · obtain rfl : last = '/' := by simpa using separated
      simp only [List.concat_eq_append, List.append_assoc, List.singleton_append,
        components_append_separator]
      simp
  · exact components_append_separator

/-- Names other than `..` only lead further down. -/
theorem foldl_enter (descends : ['.', '.'] ∉ names) :
    names.foldl enter directory = directory ++ names := by
  induction names generalizing directory with
  | nil => simp
  | cons name rest ih =>
    simp only [List.mem_cons, not_or] at descends
    rw [List.foldl_cons, ih descends.2, enter, if_neg (Ne.symm descends.1)]
    simp

theorem infix_intercalate {separator name : List Char} (found : name ∈ names) :
    name <:+: separator.intercalate names := by
  induction names with
  | nil => simp at found
  | cons first rest ih =>
    cases rest with
    | nil =>
      obtain rfl : name = first := by simpa using found
      simp
    | cons second more =>
      rw [List.intercalate_cons_cons]
      rcases List.mem_cons.mp found with rfl | later
      · rw [List.append_assoc]
        exact List.IsPrefix.isInfix (List.prefix_append _ _)
      · exact (ih later).trans (List.IsSuffix.isInfix (List.suffix_append _ _))

theorem infix_of_mem_components {name : List Char} (found : name ∈ components path) :
    name <:+: path := by
  have member : name ∈ path.splitOn '/' := List.mem_of_mem_filter found
  simpa using @infix_intercalate _ ['/'] name member

/-- A relative path without two dots in a row stays under what it is joined to. -/
theorem under_joinPath (relative : isAbsolute path = false) (noDots : ¬ ['.', '.'] <:+: path) :
    Under base (joinPath base path) := by
  have descends : ['.', '.'] ∉ components path := fun found =>
    noDots (infix_of_mem_components found)
  rw [Under, resolve, resolve, components_joinPath relative, List.foldl_append,
    foldl_enter descends]
  exact List.prefix_append _ _

theorem joinPath_absolute (absolute : isAbsolute path = true) : joinPath base path = path :=
  if_pos absolute

end TinyChat.Text
