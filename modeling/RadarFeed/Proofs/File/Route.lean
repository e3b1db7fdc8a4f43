import Mathlib.Algebra.BigOperators.Group.List.Basic
import Mathlib.Data.List.DropRight
import RadarFeed.Proofs.File.Tree

/-!
Where paths lead by their text alone.

A `Route` is what is left of a path when its points are resolved in the text: names from the root of
the file system, or some directories up from where one is and then names. Routes that are followed
one after the other are multiplied; the route of a path in a directory is the product of the two
(`Path.route_join`). A file system without links leads every path along its route
(`FileTree.place_of_locate`).

A route `Contains` those that lead to its end or below. Whether a way on from its end does so is
decided by `LeadsBack`: it may go up as long as it comes down again through the same directories
(`contains_mul_iff`).
-/

namespace RadarFeed

/-- The way of a path when its points are resolved in the text. -/
inductive Route where
  /-- Names from the root of the file system. -/
  | fromRoot (names : List String)
  /-- Names from the directory that lies `ups` above the one where the path starts. -/
  | fromHere (ups : Nat) (names : List String)
deriving DecidableEq, Repr

namespace Route

section

variable {α : Type} (s t : List α) (k n : Nat)

theorem rdrop_append : (s ++ t).rdrop k = s.rdrop (k - t.length) ++ t.rdrop k := by
  simp [List.rdrop_eq_reverse_drop_reverse, List.drop_append]

theorem rdrop_rdrop : (s.rdrop k).rdrop n = s.rdrop (k + n) := by
  simp [List.rdrop_eq_reverse_drop_reverse, List.drop_drop]

theorem length_rdrop : (s.rdrop k).length = s.length - k := by
  simp [List.rdrop]

theorem rdrop_append_rtake : s.rdrop k ++ s.rtake k = s :=
  List.take_append_drop _ _

/-- What has been left is to be entered again. -/
theorem prefix_rdrop_append_iff : s <+: s.rdrop k ++ t ↔ s.rtake k <+: t := by
  have h : s.rdrop k ++ s.rtake k <+: s.rdrop k ++ t ↔ s.rtake k <+: t :=
    List.prefix_append_right_inj _
  rwa [rdrop_append_rtake] at h

end

/-- The route that ends `k` directories further up. Above the root there is only the root. -/
def up (k : Nat) : Route → Route
  | fromRoot names => fromRoot (names.rdrop k)
  | fromHere ups names => fromHere (ups + (k - names.length)) (names.rdrop k)

/-- The route that goes on along names. -/
def enter (below : List String) : Route → Route
  | fromRoot names => fromRoot (names ++ below)
  | fromHere ups names => fromHere ups (names ++ below)

/-- One route after another. -/
instance : Mul Route where
  mul r r' :=
    match r' with
    | fromRoot names => fromRoot names
    | fromHere ups names => (r.up ups).enter names

instance : One Route := ⟨fromHere 0 []⟩

variable {r r' base : Route} {names below home : List String} {k n : Nat}

theorem one_def : (1 : Route) = fromHere 0 [] :=
  rfl

theorem mul_fromRoot (r : Route) (names : List String) : r * fromRoot names = fromRoot names :=
  rfl

theorem mul_fromHere (r : Route) (ups : Nat) (names : List String) :
    r * fromHere ups names = (r.up ups).enter names :=
  rfl

theorem fromHere_mul_fromHere (ups : Nat) (names : List String) (k : Nat) (below : List String) :
    fromHere ups names * fromHere k below =
      fromHere (ups + (k - names.length)) (names.rdrop k ++ below) :=
  rfl

theorem up_zero (r : Route) : r.up 0 = r := by
  cases r <;> simp [up]

/-- A way down after another one goes on along its names. -/
theorem mul_names (r : Route) (below : List String) : r * fromHere 0 below = r.enter below := by
  rw [mul_fromHere, up_zero]

theorem fromHere_mul (ups : Nat) (names below : List String) :
    fromHere ups names * fromHere 0 below = fromHere ups (names ++ below) :=
  mul_names _ _

theorem enter_nil (r : Route) : r.enter [] = r := by
  cases r <;> simp [enter]

theorem up_up (r : Route) (k n : Nat) : (r.up k).up n = r.up (k + n) := by
  cases r with
  | fromRoot names => simp [up, rdrop_rdrop]
  | fromHere ups names =>
    simp only [up, rdrop_rdrop, length_rdrop, fromHere.injEq, and_true]
    omega

theorem enter_enter (r : Route) (names below : List String) :
    (r.enter names).enter below = r.enter (names ++ below) := by
  cases r <;> simp [enter]

/-- To go up from what was entered is to enter less of it, and to go up where it is used up. -/
theorem up_enter (r : Route) (below : List String) (k : Nat) :
    (r.enter below).up k = (r.up (k - below.length)).enter (below.rdrop k) := by
  cases r with
  | fromRoot names => simp [up, enter, rdrop_append]
  | fromHere ups names =>
    simp only [up, enter, rdrop_append, List.length_append, fromHere.injEq, and_true]
    omega

protected theorem mul_assoc (r r' r'' : Route) : r * r' * r'' = r * (r' * r'') := by
  cases r'' with
  | fromRoot names => rfl
  | fromHere ups names =>
    cases r' with
    | fromRoot names' => rfl
    | fromHere ups' names' =>
      rw [fromHere_mul_fromHere, mul_fromHere, mul_fromHere, mul_fromHere, up_enter, up_up,
        enter_enter]

protected theorem one_mul (r : Route) : 1 * r = r := by
  cases r with
  | fromRoot names => rfl
  | fromHere ups names => simp [mul_fromHere, one_def, up, enter]

protected theorem mul_one (r : Route) : r * 1 = r := by
  rw [one_def, mul_fromHere, up_zero, enter_nil]

instance : Monoid Route where
  mul_assoc := Route.mul_assoc
  one_mul := Route.one_mul
  mul_one := Route.mul_one

/-- The route of one piece of a path. -/
def ofPiece (piece : String) : Route :=
  match Path.component? piece with
  | some .up => fromHere 1 []
  | some (.name name) => fromHere 0 [name]
  | _ => 1

theorem ofPiece_of_point {piece : String} (h : piece = "" ∨ piece = ".") : ofPiece piece = 1 := by
  simp [ofPiece, Path.component?, h]

theorem ofPiece_up : ofPiece ".." = fromHere 1 [] := by
  simp [ofPiece, Path.component?]

theorem ofPiece_name {name : String} (h : ¬ (name = "" ∨ name = ".")) (hup : name ≠ "..") :
    ofPiece name = fromHere 0 [name] := by
  simp [ofPiece, Path.component?, h, hup]

/-- The route of the pieces of a path. -/
def ofPieces (pieces : List String) : Route :=
  (pieces.map ofPiece).prod

theorem ofPieces_cons (piece : String) (pieces : List String) :
    ofPieces (piece :: pieces) = ofPiece piece * ofPieces pieces :=
  rfl

theorem ofPieces_append (front back : List String) :
    ofPieces (front ++ back) = ofPieces front * ofPieces back := by
  simp [ofPieces]

theorem ofPieces_singleton (piece : String) : ofPieces [piece] = ofPiece piece := by
  simp [ofPieces]

/-- Without two points nothing leads up. -/
theorem exists_ofPieces_eq {pieces : List String} (h : ".." ∉ pieces) :
    ∃ names, ofPieces pieces = fromHere 0 names := by
  induction pieces with
  | nil => exact ⟨[], rfl⟩
  | cons piece pieces ih =>
    simp only [List.mem_cons, not_or] at h
    obtain ⟨names, hnames⟩ := ih h.2
    rw [ofPieces_cons, hnames]
    by_cases hpoint : piece = "" ∨ piece = "."
    · exact ⟨names, by rw [ofPiece_of_point hpoint, one_mul]⟩
    · refine ⟨piece :: names, ?_⟩
      rw [ofPiece_name hpoint (Ne.symm h.1), fromHere_mul_fromHere]
      simp

/-! ## Routes below another -/

/-- `r` leads to the end of `base` or below. -/
def Contains (base r : Route) : Prop :=
  match base, r with
  | fromRoot names, fromRoot names' => names <+: names'
  | fromHere ups names, fromHere ups' names' => ups' = ups ∧ names <+: names'
  | _, _ => False

instance : (base r : Route) → Decidable (base.Contains r)
  | fromRoot names, fromRoot names' => inferInstanceAs (Decidable (names <+: names'))
  | fromHere ups names, fromHere ups' names' =>
    inferInstanceAs (Decidable (ups' = ups ∧ names <+: names'))
  | fromRoot _, fromHere _ _ => .isFalse id
  | fromHere _ _, fromRoot _ => .isFalse id

/-- `r`, followed from the end of `base`, leads to that end again or below: where it goes up, it
comes down through the directories that it has left. -/
def LeadsBack (base r : Route) : Prop :=
  match base, r with
  | base, fromRoot names => base.Contains (fromRoot names)
  | fromRoot names, fromHere ups below => names.rtake ups <+: below
  | fromHere _ names, fromHere ups below => ups ≤ names.length ∧ names.rtake ups <+: below

theorem contains_mul_iff (base r : Route) : base.Contains (base * r) ↔ base.LeadsBack r := by
  cases r with
  | fromRoot names => cases base <;> rfl
  | fromHere ups below =>
    cases base with
    | fromRoot names => exact prefix_rdrop_append_iff names below ups
    | fromHere ups' names =>
      show ups' + (ups - names.length) = ups' ∧ names <+: names.rdrop ups ++ below ↔
        ups ≤ names.length ∧ names.rtake ups <+: below
      rw [prefix_rdrop_append_iff]
      exact and_congr_left fun _ => by omega

/-- A way that goes up nowhere stays below. -/
theorem leadsBack_of_names (base : Route) (below : List String) :
    base.LeadsBack (fromHere 0 below) := by
  cases base <;> simp [LeadsBack]

/-- What is entered from a route is below it, and below what that is below. -/
theorem Contains.enter (h : base.Contains r) (below : List String) :
    base.Contains (r.enter below) := by
  cases base <;> cases r
  · exact h.trans (List.prefix_append _ _)
  · cases h
  · cases h
  · exact ⟨h.1, h.2.trans (List.prefix_append _ _)⟩

/-! ## Places -/

/-- The place that a route leads to from the place `home`. -/
def place (home : List String) : Route → List String
  | fromRoot names => names
  | fromHere ups names => home.rdrop ups ++ names

theorem place_mul (home : List String) (r r' : Route) :
    (r * r').place home = r'.place (r.place home) := by
  cases r' with
  | fromRoot names => rfl
  | fromHere ups names =>
    cases r with
    | fromRoot names' => rfl
    | fromHere ups' names' =>
      show home.rdrop (ups' + (ups - names'.length)) ++ (names'.rdrop ups ++ names) =
        (home.rdrop ups' ++ names').rdrop ups ++ names
      rw [rdrop_append, rdrop_rdrop, List.append_assoc]

theorem Contains.place (h : base.Contains r) (home : List String) :
    base.place home <+: r.place home := by
  cases base <;> cases r
  · exact h
  · cases h
  · cases h
  · obtain ⟨rfl, h⟩ := h
    exact (List.prefix_append_right_inj _).2 h

end Route

/-! ## Routes of paths -/

/-- The route of a path. -/
def Path.route (p : Path) : Route :=
  (if p.isAbsolute then .fromRoot [] else 1) * .ofPieces p.pieces

namespace Path

variable {p q : Path} {name : String}

theorem route_of_relative (h : p.isAbsolute = false) : p.route = .ofPieces p.pieces := by
  rw [route, h, if_neg Bool.false_ne_true, one_mul]

theorem route_of_empty (h : p.text = "") : p.route = 1 := by
  obtain rfl : p = ⟨""⟩ := by
    cases p
    exact congrArg Path.mk h
  decide

theorem route_name (hname : IsFileName name) : route ⟨name⟩ = .fromHere 0 [name] := by
  rw [route_of_relative (isAbsolute_name hname.slash), pieces_name hname.slash,
    Route.ofPieces_singleton, Route.ofPiece_name (by simp [hname.ne_empty, hname.ne_here]) hname.ne_up]

/-- The route of a path in a directory is that of the directory and then its own. -/
theorem route_join (p q : Path) : (p.join q).route = p.route * q.route := by
  by_cases hq : q.isAbsolute = true
  · -- an absolute path stays as it is, wherever it is seen from
    have hjoin : p.join q = q := if_pos hq
    rw [hjoin, route, hq, if_pos rfl, ← mul_assoc, Route.mul_fromRoot]
  · have hq : q.isAbsolute = false := by simpa using hq
    by_cases hp : p.text = ""
    · rw [join_of_empty hp, route_of_empty hp, one_mul]
    · obtain ⟨front, hjoin, hfront⟩ := exists_pieces_join hp hq
      have hpieces : Route.ofPieces p.pieces = .ofPieces front := by
        rcases hfront with hfront | hfront
        · rw [hfront]
        · rw [hfront, Route.ofPieces_append, Route.ofPieces_singleton,
            Route.ofPiece_of_point (.inl rfl), mul_one]
      rw [route_of_relative hq, route, route, isAbsolute_join hp hq, hjoin, Route.ofPieces_append,
        hpieces, mul_assoc]

/-- A relative path without two points leads down. -/
theorem exists_route_eq (hrelative : p.isAbsolute = false) (hup : ".." ∉ p.pieces) :
    ∃ names, p.route = .fromHere 0 names := by
  rw [route_of_relative hrelative]
  exact Route.exists_ofPieces_eq hup

end Path

namespace FileTree

variable {tree : FileTree} {p : Path} {place found : List String}

theorem place_of_follow {pieces : List String} (h : tree.follow place pieces = .ok found) :
    found = (Route.ofPieces pieces).place place := by
  induction pieces generalizing place with
  | nil =>
    cases h
    simp [Route.ofPieces, Route.one_def, Route.place]
  | cons piece pieces ih =>
    rw [Route.ofPieces_cons, Route.place_mul]
    rw [follow] at h
    split at h
    · cases h
    · cases h
    · split at h
      · rename_i hpoint
        rw [Route.ofPiece_of_point hpoint]
        simpa [Route.one_def, Route.place] using ih h
      · rename_i hpoint
        split at h
        · rename_i hup
          rw [hup, Route.ofPiece_up]
          simpa [Route.place, List.rdrop, List.dropLast_eq_take] using ih h
        · rename_i hup
          rw [Route.ofPiece_name hpoint hup]
          split at h
          · cases h
          · split at h
            · simpa [Route.place] using ih h
            · cases h

/-- Without links a path leads where its text says. -/
theorem place_of_locate (h : tree.locate p = .ok place) : place = p.route.place tree.home := by
  obtain ⟨⟨⟩, -, hfollow⟩ := bind_eq_ok_iff.1 h
  rw [place_of_follow hfollow, Path.route, Route.place_mul, origin]
  by_cases hp : p.isAbsolute = true <;> simp [hp, Route.one_def, Route.place]

end FileTree

end RadarFeed
