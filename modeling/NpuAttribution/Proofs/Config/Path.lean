import Mathlib.Logic.Relation
import NpuAttribution.Config.Endpoint
import NpuAttribution.Proofs.Text.Split

/-!
# `NpuAttribution.Proofs.Config.Path`: when two texts are the same path

Endpoints are the same if their paths have the same components. What this means for the texts of
the paths is said by `Shortens`: a slash more, or a `.` between slashes, makes no other path.
`same_iff` says that two endpoints are the same if and only if their texts come from each other by
such changes alone, each of them made in one direction or in the other.

One half is that no such change affects the components (`components_of_shortens`). For the other
half, every text can be shortened until nothing is left but its components, and this shortest
text is made from the components (`shortens_text`).
-/

set_option autoImplicit false

namespace NpuAttribution

open Relation (EqvGen)

namespace PathComponents

/-- The pieces of a path that are names. An empty piece is none, and
neither is a single `.`. -/
def namesOf (pieces : List (List Char)) : List (List Char) :=
  pieces.filter fun p => p ≠ [] ∧ p ≠ ['.']

/-- Pieces of a path, each with a slash in front of it. -/
def behind (pieces : List (List Char)) : List Char := pieces.flatMap ('/' :: ·)

/-- The shortest text with these components. -/
def text : PathComponents → List Char
  | ⟨true, []⟩ => ['/']
  | ⟨true, name :: names⟩ => behind (name :: names)
  | ⟨false, []⟩ => []
  | ⟨false, name :: names⟩ => name ++ behind names

variable {piece : List Char} {pieces : List (List Char)}

/-- A piece that is no name does not count among the names. -/
theorem namesOf_cons_of_idle (h : piece = [] ∨ piece = ['.']) :
    namesOf (piece :: pieces) = namesOf pieces := by
  rcases h with rfl | rfl <;> rfl

/-- A piece that is a name is the first of the names. -/
theorem namesOf_cons_of_name (h : ¬ (piece = [] ∨ piece = ['.'])) :
    namesOf (piece :: pieces) = piece :: namesOf pieces :=
  List.filter_cons_of_pos (decide_eq_true (not_or.mp h))

end PathComponents

namespace Endpoint

open PathComponents (namesOf behind namesOf_cons_of_idle namesOf_cons_of_name)

/-- The text of a path may be shortened in these ways, and stands for
the same path then. In front of everything else neither a slash nor a
`.` may be left out. -/
inductive Shortens : List Char → List Char → Prop
  | slash (front back : List Char) : Shortens (front ++ '/' :: '/' :: back) (front ++ '/' :: back)
  | dot (front back : List Char) :
    Shortens (front ++ '/' :: '.' :: '/' :: back) (front ++ '/' :: back)
  | slashAtEnd (front : List Char) (hne : front ≠ []) : Shortens (front ++ ['/']) front
  | dotAtEnd (front : List Char) : Shortens (front ++ ['/', '.']) (front ++ ['/'])

/-- The paths of two endpoints have the same text, but for what may be
shortened. -/
def SamePath (a b : Endpoint) : Prop := EqvGen Shortens a.path.toList b.path.toList

variable {path path' front first piece : List Char} {pieces pieces' : List (List Char)}

/-! ### Shortening keeps the components -/

/-- The components of a path, by the pieces between its slashes. If the
first piece is empty then the path begins with a slash, and otherwise
the piece is a name even if it is a `.`. -/
theorem components_eq (h : path.splitOn '/' = first :: pieces) :
    components ⟨String.ofList path⟩ = ⟨first.isEmpty && !pieces.isEmpty,
      if first.isEmpty then namesOf pieces else first :: namesOf pieces⟩ := by
  unfold components
  rw [String.toList_ofList, h]
  cases first <;> rfl

/-- Only the names count, and whether there is any piece at all behind the
first slash. The second condition tells the root from the empty path. -/
theorem components_congr (h : path.splitOn '/' = first :: pieces)
    (h' : path'.splitOn '/' = first :: pieces') (hnames : namesOf pieces = namesOf pieces')
    (hrooted : first = [] → (pieces = [] ↔ pieces' = [])) :
    components ⟨String.ofList path⟩ = components ⟨String.ofList path'⟩ := by
  rw [components_eq h, components_eq h', hnames]
  cases first with
  | nil =>
    have hempty : pieces.isEmpty = pieces'.isEmpty := by
      rw [Bool.eq_iff_iff, List.isEmpty_iff, List.isEmpty_iff]
      exact hrooted rfl
    rw [hempty]
  | cons => rfl

/-- What follows a slash has its own pieces, whatever stands in front of it. -/
theorem exists_pieces (front : List Char) : ∃ first pieces, front.splitOn '/' = first :: pieces ∧
    ∀ back : List Char,
      (front ++ '/' :: back).splitOn '/' = first :: (pieces ++ back.splitOn '/') := by
  obtain ⟨first, pieces, hfront⟩ := List.exists_cons_of_ne_nil (List.splitOn_ne_nil '/' front)
  refine ⟨first, pieces, hfront, fun back => ?_⟩
  rw [List.splitOn_append_cons_self, hfront, List.cons_append]

/-- No text that is shortened has other components. Each way to shorten
it leaves out a piece that is no name, and never the first one: that one
tells whether the path begins with a slash, which is part of the
components. The cases are the four ways to shorten a path. -/
theorem components_of_shortens (h : Shortens path path') :
    components ⟨String.ofList path⟩ = components ⟨String.ofList path'⟩ := by
  cases h with
  | slash front back =>
    obtain ⟨first, pieces, -, hsplit⟩ := exists_pieces front
    -- Of two slashes in a row the second one ends an empty piece.
    have hback : ('/' :: back).splitOn '/' = [] :: back.splitOn '/' :=
      List.splitOn_append_cons_self [] back
    refine components_congr (hsplit _) (hsplit _) ?_ fun _ => ?_
    · simp [hback, namesOf]
    · simp [List.splitOn_ne_nil]
  | dot front back =>
    obtain ⟨first, pieces, -, hsplit⟩ := exists_pieces front
    -- A dot between two slashes is a piece of its own.
    have hback : ('.' :: '/' :: back).splitOn '/' = ['.'] :: back.splitOn '/' :=
      List.splitOn_append_cons_self ['.'] back
    refine components_congr (hsplit _) (hsplit _) ?_ fun _ => ?_
    · simp [hback, namesOf]
    · simp [List.splitOn_ne_nil]
  | slashAtEnd _ hne =>
    obtain ⟨first, pieces, hfront, hsplit⟩ := exists_pieces path'
    refine components_congr (hsplit _) hfront ?_ fun hfirst => ?_
    · simp [namesOf]
    · -- The path begins with a slash, and so there is a piece behind it.
      subst hfirst
      have hsome : pieces ≠ [] := by
        rintro rfl
        exact hne (Text.splitOn_eq_singleton_iff.mp hfront).1
      simp [hsome]
  | dotAtEnd front =>
    obtain ⟨first, pieces, -, hsplit⟩ := exists_pieces front
    have hdot : ['.'].splitOn '/' = [['.']] := List.splitOn_eq_singleton (by decide)
    refine components_congr (hsplit _) (hsplit _) ?_ fun _ => ?_
    · simp [hdot, namesOf]
    · simp

/-! ### The shortest text -/

/-- A path is its first piece and all other pieces behind it, each with
its slash. -/
theorem eq_append_behind (h : path.splitOn '/' = first :: pieces) :
    path = first ++ behind pieces := by
  induction pieces generalizing path first with
  | nil =>
    rw [(Text.splitOn_eq_singleton_iff.mp h).1]
    exact (List.append_nil first).symm
  | cons piece pieces ih =>
    rcases Text.splitOn_cases '/' path with ⟨-, hsplit⟩ | ⟨front, rest, rfl, -, hsplit⟩
    · rw [hsplit] at h
      cases h
    · obtain ⟨rfl, hrest⟩ := List.cons.inj (hsplit.symm.trans h)
      rw [ih hrest]
      rfl

/-- A piece that is no name can be left out, unless this would leave
nothing. At the end of the text the slash in front of the piece is
left out with it. -/
theorem shortens_behind_cons (front : List Char) (hidle : piece = [] ∨ piece = ['.'])
    (h : front ≠ [] ∨ pieces ≠ []) :
    EqvGen Shortens (front ++ behind (piece :: pieces)) (front ++ behind pieces) := by
  cases pieces with
  | nil =>
    have hne : front ≠ [] := h.resolve_right fun hne => hne rfl
    have hend : EqvGen Shortens (front ++ ['/']) (front ++ behind []) := by
      rw [show behind [] = [] from rfl, List.append_nil]
      exact .rel _ _ (.slashAtEnd front hne)
    -- An empty piece is a slash at the end, and a `.` has one in front of it.
    rcases hidle with rfl | rfl
    · exact hend
    · exact .trans _ _ _ (.rel _ _ (.dotAtEnd front)) hend
  | cons next pieces =>
    rcases hidle with rfl | rfl
    · exact .rel _ _ (.slash front _)
    · exact .rel _ _ (.dot front _)

/-- Behind something else all pieces but the names can be left out. The
induction is on the pieces, and a name that stays becomes part of what
stands in front. -/
theorem shortens_namesOf (hne : front ≠ []) (pieces : List (List Char)) :
    EqvGen Shortens (front ++ behind pieces) (front ++ behind (namesOf pieces)) := by
  induction pieces generalizing front with
  | nil => exact .refl _
  | cons piece pieces ih =>
    by_cases hidle : piece = [] ∨ piece = ['.']
    · rw [namesOf_cons_of_idle hidle]
      exact .trans _ _ _ (shortens_behind_cons front hidle (.inl hne)) (ih hne)
    · -- A name stays, and the pieces after it stand behind it.
      have hassoc (pieces : List (List Char)) :
          front ++ behind (piece :: pieces) = (front ++ '/' :: piece) ++ behind pieces := by
        rw [List.append_assoc]
        rfl
      rw [namesOf_cons_of_name hidle, hassoc, hassoc]
      exact ih (by simp)

/-- In a path that starts at the root, the slash in front is left if
there is no name. So this is the case where there is nothing in
front of the pieces. -/
theorem shortens_rooted (hne : pieces ≠ []) :
    EqvGen Shortens (behind pieces) (PathComponents.text ⟨true, namesOf pieces⟩) := by
  induction pieces with
  | nil => exact absurd rfl hne
  | cons piece pieces ih =>
    by_cases hidle : piece = [] ∨ piece = ['.']
    · rw [namesOf_cons_of_idle hidle]
      cases pieces with
      | nil =>
        rcases hidle with rfl | rfl
        · exact .refl _
        · exact .rel _ _ (.dotAtEnd [])
      | cons next pieces =>
        have hsome : next :: pieces ≠ [] := List.cons_ne_nil next pieces
        exact .trans _ _ _ (shortens_behind_cons [] hidle (.inr hsome)) (ih hsome)
    · rw [namesOf_cons_of_name hidle]
      exact shortens_namesOf (List.cons_ne_nil '/' piece) pieces

/-- Every path can be shortened to the shortest text with its components.
Two paths with the same components therefore meet in one text. -/
theorem shortens_text (path : List Char) :
    EqvGen Shortens path (components ⟨String.ofList path⟩).text := by
  obtain ⟨first, pieces, hsplit⟩ := List.exists_cons_of_ne_nil (List.splitOn_ne_nil '/' path)
  rw [components_eq hsplit]
  conv => arg 2; rw [eq_append_behind hsplit]
  cases first with
  | nil =>
    cases pieces with
    | nil => exact .refl _
    | cons piece pieces => exact shortens_rooted (List.cons_ne_nil piece pieces)
  | cons c first => exact shortens_namesOf (List.cons_ne_nil c first) pieces

/-! ### Endpoints -/

/-- An endpoint is known by the characters of its path. -/
theorem ofList_path (e : Endpoint) : (⟨String.ofList e.path.toList⟩ : Endpoint) = e := by
  rw [String.ofList_toList]

/-- Endpoints are the same if and only if their paths are. Paths with
the same components are joined by their shortest text, and the other
half is `components_of_shortens`. -/
theorem same_iff {a b : Endpoint} : same a b = true ↔ SamePath a b := by
  have hcomponents {path path' : List Char} (h : EqvGen Shortens path path') :
      components ⟨String.ofList path⟩ = components ⟨String.ofList path'⟩ := by
    induction h with
    | rel _ _ h => exact components_of_shortens h
    | refl => rfl
    | symm _ _ _ ih => exact ih.symm
    | trans _ _ _ _ _ ih ih' => exact ih.trans ih'
  have htext (e : Endpoint) : EqvGen Shortens e.path.toList e.components.text := by
    have h := shortens_text e.path.toList
    rwa [ofList_path] at h
  rw [same, beq_iff_eq]
  constructor
  · intro h
    have ha := htext a
    rw [h] at ha
    exact .trans _ _ _ ha (.symm _ _ (htext b))
  · intro h
    have hsame := hcomponents h
    rwa [ofList_path, ofList_path] at hsame

end Endpoint

end NpuAttribution
