import Mathlib.Data.List.Infix
import Mathlib.Tactic.Common

/-!
# Lexical paths

Joining and normalising paths by their text alone, as a POSIX path library does it, with symbolic
links left out. A directory is the list of component names that lead to it from the root of the
file system. Normalising a joined path is walking its second part from where the first one led
(`walk_join`), and a walk is determined by how far the path climbs above its start and which names
it then descends through (`walk_eq_reach`).
-/

namespace Posix

/-- The name of one component of a path. -/
abbrev Name := List Char

/-- A directory, as the names that lead to it from the root. -/
abbrev Dir := List Name

/-- Whether the path starts at the root. -/
def isAbs (p : List Char) : Bool := p.head? == some '/'

/-- The join of two paths: an absolute second path replaces the first one. -/
def join (a b : List Char) : List Char :=
  if isAbs b then b
  else if a = [] ∨ a.getLast? = some '/' then a ++ b
  else a ++ '/' :: b

/-- One component followed from a directory: empty components and `.` stay, `..` goes to the
parent, and the parent of the root is the root. -/
def enter (d : Dir) (name : Name) : Dir :=
  if name = [] ∨ name = ['.'] then d
  else if name = ['.', '.'] then d.dropLast
  else d ++ [name]

/-- The components of a relative path followed from a directory. -/
def follow (d : Dir) (p : List Char) : Dir := (p.splitOn '/').foldl enter d

/-- A path followed from a directory; an absolute one starts at the root again. -/
def walk (d : Dir) (p : List Char) : Dir := if isAbs p then follow [] p else follow d p

/-- The directory of a path, for a process whose working directory is `cwd`: the components of the
normalised `join cwd p`. -/
def absDir (cwd p : List Char) : Dir := follow [] (join cwd p)

@[simp] lemma follow_nil (d : Dir) : follow d [] = d := by
  rfl

lemma follow_slash (d : Dir) (a b : List Char) :
    follow d (a ++ '/' :: b) = follow (follow d a) b := by
  rw [follow, List.splitOn_append_cons_self, List.foldl_append]
  rfl

lemma isAbs_append {a : List Char} (ha : a ≠ []) (b : List Char) : isAbs (a ++ b) = isAbs a := by
  cases a with
  | nil => exact absurd rfl ha
  | cons c a => rfl

/-- A trailing separator leads nowhere else. -/
lemma follow_append_of_getLast {a : List Char} (ha : a.getLast? = some '/') (d : Dir)
    (b : List Char) : follow d (a ++ b) = follow (follow d a) b := by
  obtain ⟨a', rfl⟩ := List.getLast?_eq_some_iff.mp ha
  rw [List.append_assoc, List.singleton_append, follow_slash, follow_slash, follow_nil]

/-- Following a joined path is walking its second part from where the first one led. -/
lemma follow_join (d : Dir) (a b : List Char) :
    follow d (join a b) = if isAbs b then follow d b else follow (follow d a) b := by
  unfold join
  split_ifs with hb ha
  · rfl
  · rcases ha with rfl | ha
    · rfl
    · exact follow_append_of_getLast ha d b
  · exact follow_slash d a b

lemma isAbs_join (a b : List Char) : isAbs (join a b) = (isAbs b || isAbs a) := by
  unfold join
  split_ifs with hb ha
  · simp [hb]
  · rcases ha with rfl | ha
    · simp [isAbs]
    · have ha' : a ≠ [] := by
        rintro rfl
        cases ha
      rw [isAbs_append ha', Bool.eq_false_iff.mpr hb, Bool.false_or]
  · have ha' : a ≠ [] := fun h => ha (Or.inl h)
    rw [isAbs_append ha', Bool.eq_false_iff.mpr hb, Bool.false_or]

lemma walk_join (d : Dir) (a b : List Char) : walk d (join a b) = walk (walk d a) b := by
  unfold walk
  rw [isAbs_join, follow_join, follow_join]
  cases hb : isAbs b <;> cases ha : isAbs a <;> simp

lemma absDir_eq_walk (cwd p : List Char) : absDir cwd p = walk (follow [] cwd) p := by
  rw [absDir, follow_join, walk]

/-- The directory of a joined path is reached from the directory of its first part. -/
lemma absDir_join (cwd a b : List Char) : absDir cwd (join a b) = walk (absDir cwd a) b := by
  rw [absDir_eq_walk, absDir_eq_walk, walk_join]

/-! ### How far a path climbs and what it descends through -/

/-- What a path does to its start: it climbs some levels and then descends through names. -/
structure Reach where
  climbs : ℕ
  names : List Name
  deriving DecidableEq

/-- One more component; `..` takes back the last name or, with no name left, climbs. -/
def Reach.enter (r : Reach) (name : Name) : Reach :=
  if name = [] ∨ name = ['.'] then r
  else if name = ['.', '.'] then
    if r.names = [] then { r with climbs := r.climbs + 1 }
    else { r with names := r.names.dropLast }
  else { r with names := r.names ++ [name] }

/-- The reach of a relative path. -/
def reach (p : List Char) : Reach := (p.splitOn '/').foldl Reach.enter ⟨0, []⟩

/-- Where a reach leads from a directory. -/
def Reach.dest (r : Reach) (d : Dir) : Dir := d.take (d.length - r.climbs) ++ r.names

/-- The reach of a path whose start is `depth` levels below the root: an absolute path climbs all
of them. -/
def reachAt (depth : ℕ) (p : List Char) : Reach :=
  if isAbs p then ⟨depth, (reach p).names⟩ else reach p

lemma Reach.dest_enter (r : Reach) (d : Dir) (name : Name) :
    (r.enter name).dest d = Posix.enter (r.dest d) name := by
  unfold Reach.enter Posix.enter
  split_ifs with h₁ h₂ h₃
  · rfl
  · -- nothing to take back: the start loses one more level
    simp only [Reach.dest, h₃, List.append_nil]
    rw [List.dropLast_eq_take, List.take_take, List.length_take]
    congr 1
    omega
  · rw [Reach.dest, Reach.dest, List.dropLast_append_of_ne_nil h₃]
  · rw [Reach.dest, Reach.dest, List.append_assoc]

lemma Reach.dest_foldl (names : List Name) (r : Reach) (d : Dir) :
    (names.foldl Reach.enter r).dest d = names.foldl Posix.enter (r.dest d) := by
  induction names generalizing r with
  | nil => rfl
  | cons name names ih =>
    rw [List.foldl_cons, List.foldl_cons, ih, Reach.dest_enter]

lemma follow_eq_reach (d : Dir) (p : List Char) : follow d p = (reach p).dest d := by
  rw [reach, Reach.dest_foldl]
  simp [Reach.dest, follow]

lemma walk_eq_reach (d : Dir) (p : List Char) : walk d p = (reachAt d.length p).dest d := by
  unfold walk reachAt
  split_ifs
  · rw [follow_eq_reach]
    simp [Reach.dest]
  · exact follow_eq_reach d p

/-- The names left over below a directory, when the reach first names again what it climbed out
of. -/
def Reach.below (r : Reach) (d : Dir) : Option (List Name) :=
  (d.drop (d.length - r.climbs)).isPrefixOf? r.names

/-- A plain name is the one component its path descends through. -/
lemma reach_of_plain {p : List Char} (hslash : '/' ∉ p) (hne : p ≠ []) (hdot : p ≠ ['.'])
    (hdots : p ≠ ['.', '.']) : reach p = ⟨0, [p]⟩ := by
  rw [reach, List.splitOn_eq_singleton hslash]
  simp [Reach.enter, hne, hdot, hdots]

lemma isAbs_of_not_mem {p : List Char} (hslash : '/' ∉ p) : isAbs p = false := by
  cases p with
  | nil => rfl
  | cons c p =>
    apply beq_eq_false_iff_ne.mpr
    rintro h
    cases h
    exact hslash List.mem_cons_self

/-- A reach leads to the directory itself or below it exactly when names are left over. -/
lemma Reach.dest_eq_append_iff (r : Reach) (d : Dir) (rest : List Name) :
    r.dest d = d ++ rest ↔ r.below d = some rest := by
  have hd : d = d.take (d.length - r.climbs) ++ d.drop (d.length - r.climbs) :=
    (List.take_append_drop _ d).symm
  rw [Reach.below, List.isPrefixOf?_eq_some_iff_append_eq, Reach.dest]
  constructor
  · intro h
    conv_rhs at h => rw [hd, List.append_assoc]
    exact (List.append_cancel_left h).symm
  · intro h
    rw [← h, ← List.append_assoc, List.take_append_drop]

/-! ### Containment -/

/-- `d` lies strictly inside `root`. -/
def StrictlyInside (root d : Dir) : Prop := root <+: d ∧ root ≠ d

/-- Neither directory equals, contains or is contained in the other. -/
def Apart (d e : Dir) : Prop := ¬ d <+: e ∧ ¬ e <+: d

lemma strictlyInside_iff {root d : Dir} :
    StrictlyInside root d ↔ ∃ rest, d = root ++ rest ∧ rest ≠ [] := by
  constructor
  · rintro ⟨⟨rest, rfl⟩, hne⟩
    refine ⟨rest, rfl, ?_⟩
    rintro rfl
    exact hne (List.append_nil root).symm
  · rintro ⟨rest, rfl, hne⟩
    exact ⟨List.prefix_append root rest, fun h => hne (List.self_eq_append_right.mp h)⟩

lemma StrictlyInside.append {root d : Dir} (h : StrictlyInside root d) (names : List Name) :
    StrictlyInside root (d ++ names) := by
  obtain ⟨rest, rfl, hne⟩ := strictlyInside_iff.mp h
  refine strictlyInside_iff.mpr ⟨rest ++ names, List.append_assoc _ _ _, ?_⟩
  intro h
  exact hne (List.append_eq_nil_iff.mp h).1

lemma Apart.symm {d e : Dir} (h : Apart d e) : Apart e d := ⟨h.2, h.1⟩

lemma apart_append_left_iff {root d e : Dir} : Apart (root ++ d) (root ++ e) ↔ Apart d e := by
  simp only [Apart, List.prefix_append_right_inj]

/-- The directory everything starts at is apart from none. -/
lemma Apart.ne_nil {d e : Dir} (h : Apart d e) : d ≠ [] := by
  rintro rfl
  exact h.1 List.nil_prefix

/-- What lies below directories that are apart is apart. -/
lemma Apart.append_left {d e : Dir} (h : Apart d e) (names : List Name) :
    Apart (d ++ names) e := by
  refine ⟨fun hde => h.1 ((List.prefix_append d names).trans hde), fun hed => ?_⟩
  rcases List.prefix_or_prefix_of_prefix hed (List.prefix_append d names) with hp | hp
  · exact h.2 hp
  · exact h.1 hp

end Posix
