import AlienConnection.Library.Text

/-!
# Paths

The names of a path are what stands between its slashes. Following a name leads from one
place of a file tree to another: a single dot stays, two dots go back, and any other name
goes forward.
-/

namespace AlienConnection.Library

namespace Path

/-- The names of a path. Slashes in a row, or at the end, have no name between them. -/
def names (path : Text) : List Text := (path.splitOn '/').filter (· ≠ [])

def join (names : List Text) : Text := names.flatMap ('/' :: ·)

/-- Where a name leads from a place, which is given by the names on the way to it. -/
def follow (place : List Text) (name : Text) : List Text :=
  if name = ['.'] then place
  else if name = ['.', '.'] then place.dropLast
  else place ++ [name]

def place (path : Text) : List Text := (names path).foldl follow []

def Inside (directory path : Text) : Prop := place directory <+: place path

/-- A path that stays in a directory when it is followed from there. -/
def Stays (directory path : Text) : Prop :=
  place directory <+: (names path).foldl follow (place directory)

instance (directory path : Text) : Decidable (Inside directory path) :=
  inferInstanceAs (Decidable (_ <+: _))

instance (directory path : Text) : Decidable (Stays directory path) :=
  inferInstanceAs (Decidable (_ <+: _))

theorem names_append_slash (front back : Text) :
    names (front ++ '/' :: back) = names front ++ names back := by
  have cut : (front ++ '/' :: back).splitOn '/' = front.splitOn '/' ++ back.splitOn '/' :=
    List.splitOnP_append_cons front back (beq_self_eq_true '/')
  rw [names, cut, List.filter_append]
  rfl

theorem ne_nil_of_mem_names {path name : Text} (member : name ∈ names path) : name ≠ [] :=
  of_decide_eq_true (List.mem_filter.mp member).2

theorem not_mem_of_mem_names {path name : Text} (member : name ∈ names path) : '/' ∉ name :=
  Text.not_mem_of_mem_splitOn (List.mem_filter.mp member).1

theorem names_of_plain {name : Text} (nonempty : name ≠ []) (plain : '/' ∉ name) :
    names name = [name] := by
  rw [names, List.splitOn_eq_singleton plain]
  simp [nonempty]

/-- The names behind a directory are added to its own. -/
theorem names_append_join (directory : Text) {added : List Text}
    (nonempty : ∀ name ∈ added, name ≠ []) (plain : ∀ name ∈ added, '/' ∉ name) :
    names (directory ++ join added) = names directory ++ added := by
  induction added generalizing directory with
  | nil => simp [join]
  | cons name rest ih =>
      have single := names_of_plain (nonempty name List.mem_cons_self)
        (plain name List.mem_cons_self)
      have regroup : directory ++ join (name :: rest) = (directory ++ '/' :: name) ++ join rest := by
        simp [join]
      rw [regroup, ih _ (fun other member => nonempty other (List.mem_cons_of_mem _ member))
        (fun other member => plain other (List.mem_cons_of_mem _ member)), names_append_slash,
        single, List.append_assoc, List.singleton_append]

/-- A path behind a directory is inside of it if it stays there. -/
theorem inside_append_join_iff (directory path : Text) :
    Inside directory (directory ++ join (names path)) ↔ Stays directory path := by
  rw [Inside, Stays, place, place, names_append_join directory
    (fun _ member => ne_nil_of_mem_names member) (fun _ member => not_mem_of_mem_names member),
    List.foldl_append]

/-- Behind a directory and a slash, something has to follow. -/
theorem slash_prefix_iff (directory : Text) (added : List Text) :
    directory ++ ['/'] <+: directory ++ join added ↔ added ≠ [] := by
  rw [List.prefix_append_right_inj]
  cases added with
  | nil => simp [join]
  | cons name rest => simp [join]

end Path

end AlienConnection.Library
