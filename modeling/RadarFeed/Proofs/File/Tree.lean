import Mathlib.Tactic.MkIffOfInductiveProp
import RadarFeed.File.Tree
import RadarFeed.Proofs.Decode.Fields
import RadarFeed.Proofs.Keys

/-!
Places of a file system and the paths that lead to them.

A file system is `Sound` if its places are made of names and no place is there twice. Making
directories, writing and removing keep it so, and so every one that comes about is sound
(`Reached.sound`). In a sound one a directory lists what there is directly below it
(`mem_list_iff`), and a path that is a name longer than the one of a directory leads to the place of
that name below it (`locate_join`).
-/

namespace RadarFeed

/-- A name that a file may have. -/
@[mk_iff]
structure IsFileName (name : String) : Prop where
  ne_empty : name ≠ ""
  ne_here : name ≠ "."
  ne_up : name ≠ ".."
  slash : '/' ∉ name.toList
  zero : '\x00' ∉ name.toList
  size : Utf8.size name.toList ≤ FileTree.maxName

instance (name : String) : Decidable (IsFileName name) :=
  decidable_of_iff _ (isFileName_iff name).symm

namespace FileTree

variable {tree tree' : FileTree} {p : Path} {place : List String} {name : String}

/-! ## Sound file systems -/

/-- What holds of every file system. -/
structure Sound (tree : FileTree) : Prop where
  names : ∀ e ∈ tree.places, ∀ name ∈ e.1, IsFileName name
  home : ∀ name ∈ tree.home, IsFileName name
  unique : (tree.places.map Prod.fst).Nodup

theorem node?_eq_some_iff (h : tree.Sound) {node : FileNode} (hne : place ≠ []) :
    tree.node? place = some node ↔ (place, node) ∈ tree.places := by
  have hempty : place.isEmpty = false := by simpa using hne
  rw [node?, hempty, if_neg Bool.false_ne_true, Option.map_eq_some_iff]
  simp only [find?_key_eq_some_iff h.unique]
  constructor
  · rintro ⟨e, ⟨he, rfl⟩, rfl⟩
    exact he
  · intro hmem
    exact ⟨_, ⟨hmem, rfl⟩, rfl⟩

theorem Sound.of_node? (h : tree.Sound) (hnode : (tree.node? place).isSome) :
    ∀ name ∈ place, IsFileName name := by
  by_cases hne : place = []
  · simp [hne]
  · obtain ⟨node, hnode⟩ := Option.isSome_iff_exists.1 hnode
    exact h.names _ ((node?_eq_some_iff h hne).1 hnode)

/-- A file system with no more than one directory is sound. -/
theorem sound_ofHome {home : String} (h : IsFileName home) : (ofHome home).Sound where
  names := by simpa [ofHome] using h
  home := by simpa [ofHome] using h
  unique := by simp [ofHome]

theorem Sound.set (h : tree.Sound) (hplace : ∀ name ∈ place, IsFileName name) (node : FileNode) :
    (tree.set place node).Sound := by
  unfold FileTree.set
  split
  · have hkeys : (tree.places.map fun e => if e.1 = place then (place, node) else e).map Prod.fst =
        tree.places.map Prod.fst := by
      rw [List.map_map]
      refine List.map_congr_left fun e _ => ?_
      by_cases he : e.1 = place <;> simp [he]
    refine ⟨?_, h.home, by rw [hkeys]; exact h.unique⟩
    intro e he
    obtain ⟨d, hd, rfl⟩ := List.mem_map.1 he
    split
    · exact hplace
    · exact h.names d hd
  · rename_i hnew
    refine ⟨?_, h.home, ?_⟩
    · intro e he
      rcases List.mem_append.1 he with he | he
      · exact h.names e he
      · rw [List.mem_singleton.1 he]
        exact hplace
    · rw [List.map_append, List.nodup_append]
      refine ⟨h.unique, by simp, ?_⟩
      intro k hk k' hk' heq
      obtain rfl : k' = place := by simpa using hk'
      obtain ⟨e, he, rfl⟩ := List.mem_map.1 hk
      exact hnew (List.any_eq_true.2 ⟨e, he, by simpa using heq⟩)

/-! ## Paths -/

theorem follow_append (tree : FileTree) (place front back : List String) :
    tree.follow place (front ++ back) =
      tree.follow place front >>= fun place => tree.follow place back := by
  induction front generalizing place with
  | nil => rfl
  | cons piece front ih =>
    rw [List.cons_append, follow, follow]
    split
    · rfl
    · rfl
    · split
      · exact ih _
      · split
        · exact ih _
        · split
          · rfl
          · split
            · exact ih _
            · rfl

/-- What a path leads to from a place made of names is made of names. -/
theorem Sound.follow (h : tree.Sound) {pieces : List String} {found : List String}
    (hplace : ∀ name ∈ place, IsFileName name) (hfollow : tree.follow place pieces = .ok found) :
    ∀ name ∈ found, IsFileName name := by
  induction pieces generalizing place with
  | nil =>
    cases hfollow
    exact hplace
  | cons piece pieces ih =>
    rw [FileTree.follow] at hfollow
    split at hfollow
    · cases hfollow
    · cases hfollow
    · split at hfollow
      · exact ih hplace hfollow
      · split at hfollow
        · exact ih (fun name hname => hplace name (List.dropLast_subset _ hname)) hfollow
        · split at hfollow
          · cases hfollow
          · split at hfollow
            · rename_i hnode
              exact ih (h.of_node? hnode) hfollow
            · cases hfollow

theorem Sound.origin (h : tree.Sound) (p : Path) : ∀ name ∈ tree.origin p, IsFileName name := by
  unfold FileTree.origin
  split
  · simp
  · exact h.home

theorem check_eq_ok_iff : check p = .ok () ↔
    '\x00' ∉ p.text.toList ∧ p.text ≠ "" ∧ Utf8.size p.text.toList ≤ maxPath := by
  unfold check
  split
  · simp_all
  · split
    · simp_all
    · split
      · simp_all
      · simp_all

/-- The last piece of a path is a name if it is not made of points and not too long. -/
theorem isFileName_of_last? {above : List String} (hcheck : check p = .ok ())
    (hlast : p.last? = some (above, name)) (hpoints : ¬ (name = "." ∨ name = ".."))
    (hsize : Utf8.size name.toList ≤ maxName) : IsFileName name := by
  obtain ⟨hzero, -, -⟩ := check_eq_ok_iff.1 hcheck
  rw [not_or] at hpoints
  unfold Path.last? at hlast
  split at hlast
  · cases hlast
  · rename_i piece rest hdrop
    obtain ⟨-, rfl⟩ := Prod.mk.inj (Option.some.inj hlast)
    have hne : piece ≠ "" := by
      have hhead := List.head?_dropWhile_not (fun q => decide (q = "")) p.pieces.reverse
      rw [hdrop] at hhead
      simpa using hhead
    have hmem : piece ∈ p.pieces := by
      have hsuffix := List.dropWhile_suffix (l := p.pieces.reverse) fun q => decide (q = "")
      rw [hdrop] at hsuffix
      exact List.mem_reverse.1 (hsuffix.subset List.mem_cons_self)
    obtain ⟨chars, hchars, rfl⟩ := List.mem_map.1 hmem
    obtain ⟨hslash, hsub⟩ := Text.of_mem_splitAt hchars
    refine ⟨hne, hpoints.1, hpoints.2, ?_, ?_, hsize⟩
    · simpa using hslash
    · intro h
      exact hzero (hsub (by simpa using h))

theorem placeBelow_eq_ok_iff {found : List String} :
    placeBelow place name = .ok found ↔
      Utf8.size name.toList ≤ maxName ∧ found = place ++ [name] := by
  unfold placeBelow
  split
  · rename_i h
    simp [Nat.not_le.2 h]
  · rename_i h
    simp [Nat.not_lt.1 h, eq_comm]

namespace Sound
variable (h : tree.Sound)
include h

theorem enter {pieces : List String} (henter : tree.enter p pieces = .ok place) :
    ∀ name ∈ place, IsFileName name :=
  h.follow (h.origin p) henter

theorem makeDirectory (hmade : tree.makeDirectory p = .ok tree') : tree'.Sound := by
  obtain ⟨⟨⟩, hcheck, hmade⟩ := bind_eq_ok_iff.1 hmade
  split at hmade
  · exact (throw_eq_ok_iff.1 hmade).elim
  · rename_i above name hlast
    simp only [bind_eq_ok_iff, guard_eq_ok_iff, pure_eq_ok_iff, placeBelow_eq_ok_iff] at hmade
    obtain ⟨place, hplace, hpoints, found, ⟨hsize, rfl⟩, -, rfl⟩ := hmade
    refine h.set ?_ _
    intro name' hname'
    rcases List.mem_append.1 hname' with hname' | hname'
    · exact h.enter hplace name' hname'
    · rw [List.mem_singleton.1 hname']
      exact isFileName_of_last? hcheck hlast hpoints hsize

theorem ensureDirectory (p : Path) : (tree.ensureDirectory p).1.Sound := by
  unfold FileTree.ensureDirectory
  split
  · exact h.makeDirectory ‹_›
  · exact h

theorem ensureFirst (paths : List Path) : (tree.ensureFirst paths).1.Sound := by
  induction paths generalizing tree with
  | nil => exact h
  | cons p above ih =>
    have hp := h.ensureDirectory p
    rw [FileTree.ensureFirst]
    split
    · rename_i made he
      rw [he] at hp
      have habove := ih hp
      split
      · rename_i made' ha
        rw [ha] at habove
        exact habove.ensureDirectory p
      · exact habove
    · exact hp

theorem makeDirectories (p : Path) : (tree.makeDirectories p).1.Sound := by
  unfold FileTree.makeDirectories
  split
  · exact h
  · exact h.ensureFirst _

theorem locateNew (hplace : tree.locateNew p = .ok place) : ∀ name ∈ place, IsFileName name := by
  obtain ⟨⟨⟩, hcheck, hplace⟩ := bind_eq_ok_iff.1 hplace
  split at hplace
  · exact (throw_eq_ok_iff.1 hplace).elim
  · rename_i above name hlast
    simp only [bind_eq_ok_iff, guard_eq_ok_iff, pure_eq_ok_iff, placeBelow_eq_ok_iff] at hplace
    obtain ⟨place, henter, hpoints, found, ⟨hsize, rfl⟩, -, rfl⟩ := hplace
    intro name' hname'
    rcases List.mem_append.1 hname' with hname' | hname'
    · exact h.enter henter name' hname'
    · rw [List.mem_singleton.1 hname']
      refine isFileName_of_last? hcheck hlast ?_ hsize
      rw [← or_assoc, not_or] at hpoints
      exact hpoints.1

theorem write (p : Path) (bytes : List UInt8) : (tree.write p bytes).1.Sound := by
  have hdirs := h.ensureFirst p.ancestors
  unfold FileTree.write
  split
  · rename_i made he
    rw [he] at hdirs
    split
    · exact hdirs.set (hdirs.locateNew ‹_›) _
    · exact hdirs
  · exact hdirs

theorem remove (hremove : tree.remove p = .ok tree') : tree'.Sound := by
  obtain ⟨place, -, hremove⟩ := bind_eq_ok_iff.1 hremove
  split at hremove
  · obtain rfl := pure_eq_ok_iff.1 hremove
    refine ⟨fun e he => h.names e (List.mem_filter.1 he).1, h.home, ?_⟩
    exact (List.filter_sublist.map Prod.fst).nodup h.unique
  · exact (throw_eq_ok_iff.1 hremove).elim
  · exact (throw_eq_ok_iff.1 hremove).elim

end Sound

/-- The file systems that come about from one directory. A step that fails may have done a part of
its work. -/
inductive Reached (home : String) : FileTree → Prop where
  | start : Reached home (ofHome home)
  | makeDirectories {t : FileTree} (q : Path) : Reached home t → Reached home (t.makeDirectories q).1
  | write {t : FileTree} (q : Path) (bytes : List UInt8) :
      Reached home t → Reached home (t.write q bytes).1
  | remove {t t' : FileTree} {q : Path} : Reached home t → t.remove q = .ok t' → Reached home t'

/-- **Every file system that comes about is sound.** -/
theorem Reached.sound {home : String} (hhome : IsFileName home) (h : Reached home tree) :
    tree.Sound := by
  induction h with
  | start => exact sound_ofHome hhome
  | makeDirectories q _ ih => exact ih.makeDirectories q
  | write q bytes _ ih => exact ih.write q bytes
  | remove _ hremove ih => exact ih.remove hremove

/-! ## Names below a directory -/

theorem nameBelow_eq_some_iff {above : List String} :
    nameBelow above place = some name ↔ place = above ++ [name] := by
  unfold nameBelow
  constructor
  · intro h
    obtain ⟨hdrop, hlast⟩ := Option.ite_none_right_eq_some.1 h
    obtain ⟨front, rfl⟩ := List.getLast?_eq_some_iff.1 hlast
    rw [List.dropLast_concat] at hdrop
    rw [hdrop]
  · rintro rfl
    simp

/-- A directory lists what there is directly below its place. -/
theorem mem_list_iff (h : tree.Sound) {listing : List (String × Bool)} {isDirectory : Bool}
    (hlist : tree.list p = .ok listing) (hplace : tree.locate p = .ok place) :
    (name, isDirectory) ∈ listing ↔
      ∃ node, tree.node? (place ++ [name]) = some node ∧
        isDirectory = decide (node = .directory) := by
  obtain ⟨found, hfound, hlist⟩ := bind_eq_ok_iff.1 hlist
  obtain rfl : found = place := Except.ok.inj (hfound.symm.trans hplace)
  split at hlist
  · obtain rfl := pure_eq_ok_iff.1 hlist
    simp only [List.mem_filterMap, Option.map_eq_some_iff, nameBelow_eq_some_iff, Prod.mk.injEq]
    constructor
    · rintro ⟨e, he, name', hname', rfl, rfl⟩
      exact ⟨e.2, (node?_eq_some_iff h (by simp)).2 (hname' ▸ he), rfl⟩
    · rintro ⟨node, hnode, rfl⟩
      exact ⟨_, (node?_eq_some_iff h (by simp)).1 hnode, name, rfl, rfl, rfl⟩
  · exact (throw_eq_ok_iff.1 hlist).elim
  · exact (throw_eq_ok_iff.1 hlist).elim

theorem directory_of_list {listing : List (String × Bool)} (hlist : tree.list p = .ok listing) :
    ∃ place, tree.locate p = .ok place ∧ tree.node? place = some .directory := by
  obtain ⟨place, hplace, hlist⟩ := bind_eq_ok_iff.1 hlist
  split at hlist
  · exact ⟨place, hplace, ‹_›⟩
  · exact (throw_eq_ok_iff.1 hlist).elim
  · exact (throw_eq_ok_iff.1 hlist).elim

theorem exists_list (hplace : tree.locate p = .ok place)
    (hnode : tree.node? place = some .directory) : ∃ listing, tree.list p = .ok listing := by
  unfold FileTree.list
  rw [hplace]
  simp only [bind, Except.bind, hnode]
  exact ⟨_, rfl⟩

end FileTree

namespace Path

variable {p q : Path} {name : String}

/-- Between two texts that are joined there is a slash. -/
theorem text_join (hp : p.text ≠ "") (hq : q.isAbsolute = false) :
    (p.join q).text =
      p.text ++ (if p.text.toList.getLast? = some '/' then "" else "/") ++ q.text := by
  rw [join, hq, if_neg Bool.false_ne_true]
  by_cases hend : p.text.toList.getLast? = some '/' <;> simp [hp, hend]

theorem text_join_ne_empty (h : p.text ≠ "" ∨ q.text ≠ "") : (p.join q).text ≠ "" := by
  unfold join
  split
  · rename_i hq
    intro hempty
    rw [isAbsolute, hempty] at hq
    simp at hq
  · split
    · rw [Ne, String.append_eq_empty_iff, not_and_or]
      exact h
    · simp

theorem join_of_empty (hp : p.text = "") (q : Path) : p.join q = q := by
  simp [join, hp]

theorem isAbsolute_join (hp : p.text ≠ "") (hq : q.isAbsolute = false) :
    (p.join q).isAbsolute = p.isAbsolute := by
  have hne : p.text.toList ≠ [] := by simpa using hp
  obtain ⟨c, rest, hc⟩ := List.exists_cons_of_ne_nil hne
  simp [isAbsolute, text_join hp hq, hc]

/-- The pieces of a path in a directory are those of the directory and its own; an empty piece at
the end of the directory is left out. -/
theorem exists_pieces_join (hp : p.text ≠ "") (hq : q.isAbsolute = false) :
    ∃ front, (p.join q).pieces = front ++ q.pieces ∧
      (p.pieces = front ∨ p.pieces = front ++ [""]) := by
  by_cases hend : p.text.toList.getLast? = some '/'
  · obtain ⟨front, hfront⟩ := List.getLast?_eq_some_iff.1 hend
    have htext : (p.join q).text.toList = front ++ '/' :: q.text.toList := by
      rw [text_join hp hq]
      simp [hfront]
    refine ⟨(Text.splitAt '/' front).map String.ofList, ?_, .inr ?_⟩
    · rw [pieces, htext, Text.splitAt_append, List.map_append]
      rfl
    · rw [pieces, hfront, Text.splitAt_append, List.map_append]
      rfl
  · have htext : (p.join q).text.toList = p.text.toList ++ '/' :: q.text.toList := by
      rw [text_join hp hq, if_neg hend]
      simp
    refine ⟨p.pieces, ?_, .inl rfl⟩
    rw [pieces, htext, Text.splitAt_append, List.map_append]
    rfl

theorem isAbsolute_name (hname : '/' ∉ name.toList) : isAbsolute ⟨name⟩ = false := by
  rw [isAbsolute, decide_eq_false_iff_not]
  intro h
  exact hname (List.mem_of_mem_head? h)

theorem pieces_name (hname : '/' ∉ name.toList) : pieces ⟨name⟩ = [name] := by
  rw [pieces, Text.splitAt_of_not_mem hname]
  simp

end Path

namespace FileTree

variable {tree : FileTree} {dir : Path} {place found : List String} {name : String}

/-- An empty piece in front of another one makes no difference. -/
theorem follow_empty_cons (tree : FileTree) (place : List String) (piece : String)
    (rest : List String) : tree.follow place ("" :: piece :: rest) =
      tree.follow place (piece :: rest) := by
  rw [follow]
  cases hnode : tree.node? place with
  | none => rw [follow, hnode]
  | some node =>
    cases node with
    | directory => rfl
    | file bytes => rw [follow, hnode]

/-- A path of a name in a directory is followed to the directory, and from there along the name. -/
theorem follow_join (hdir : dir.text ≠ "") (hname : '/' ∉ name.toList) :
    tree.follow (tree.origin (dir.join ⟨name⟩)) (dir.join ⟨name⟩).pieces =
      tree.follow (tree.origin dir) dir.pieces >>= fun place => tree.follow place [name] := by
  have hrelative := Path.isAbsolute_name hname
  have horigin : tree.origin (dir.join ⟨name⟩) = tree.origin dir := by
    rw [origin, origin, Path.isAbsolute_join hdir hrelative]
  obtain ⟨front, hpieces, hfront⟩ := Path.exists_pieces_join hdir hrelative
  rw [horigin, hpieces, Path.pieces_name hname, ← follow_append]
  rcases hfront with hfront | hfront
  · rw [hfront]
  · rw [hfront, List.append_assoc, follow_append, follow_append]
    exact congrArg _ (funext fun place => (follow_empty_cons tree place name []).symm)

theorem follow_name (hnode : tree.node? place = some .directory) (hname : IsFileName name) :
    tree.follow place [name] =
      if (tree.node? (place ++ [name])).isSome then .ok (place ++ [name])
      else .error .notFound := by
  simp [follow, hnode, hname.ne_empty, hname.ne_here, hname.ne_up, Nat.not_lt.2 hname.size]

theorem check_join (hdir : check dir = .ok ()) (hname : IsFileName name) :
    check (dir.join ⟨name⟩) =
      if maxPath < Utf8.size (dir.join ⟨name⟩).text.toList then .error .nameTooLong
      else .ok () := by
  obtain ⟨hzero, hne, -⟩ := check_eq_ok_iff.1 hdir
  have htext := Path.text_join hne (Path.isAbsolute_name hname.slash)
  have hzero' : '\x00' ∉ (dir.join ⟨name⟩).text.toList := by
    rw [htext]
    split <;> simp [hzero, hname.zero]
  have hne' : (dir.join ⟨name⟩).text ≠ "" := Path.text_join_ne_empty (.inl hne)
  simp [check, hzero', hne']

/-- Where the path of a name in a directory leads. -/
theorem locate_join (hdir : tree.locate dir = .ok place)
    (hnode : tree.node? place = some .directory) (hname : IsFileName name) :
    tree.locate (dir.join ⟨name⟩) =
      if maxPath < Utf8.size (dir.join ⟨name⟩).text.toList then .error .nameTooLong
      else if (tree.node? (place ++ [name])).isSome then .ok (place ++ [name])
      else .error .notFound := by
  obtain ⟨⟨⟩, hcheck, hfollow⟩ := bind_eq_ok_iff.1 hdir
  have hne := (check_eq_ok_iff.1 hcheck).2.1
  have hlast : tree.follow (tree.origin (dir.join ⟨name⟩)) (dir.join ⟨name⟩).pieces =
      tree.follow place [name] := by
    rw [follow_join hne hname.slash, hfollow]
    rfl
  rw [locate, check_join hcheck hname, hlast, follow_name hnode hname]
  split
  · rfl
  · rfl

/-- If the path of a name in a directory can be followed, so can that of the directory. -/
theorem check_of_check_join (hdir : dir.text ≠ "") (hslash : '/' ∉ name.toList)
    (hcheck : check (dir.join ⟨name⟩) = .ok ()) : check dir = .ok () ∧ '\x00' ∉ name.toList := by
  obtain ⟨hzero, -, hsize⟩ := check_eq_ok_iff.1 hcheck
  rw [Path.text_join hdir (Path.isAbsolute_name hslash)] at hzero hsize
  simp only [String.toList_append, List.mem_append, not_or, Utf8.size_append] at hzero hsize
  exact ⟨check_eq_ok_iff.2 ⟨hzero.1.1, hdir, by omega⟩, hzero.2⟩

/-- Along one piece that is not of points a directory is left for what it has of that name. -/
theorem of_follow_name (hempty : name ≠ "") (hhere : name ≠ ".") (hup : name ≠ "..")
    (hfollow : tree.follow place [name] = .ok found) :
    tree.node? place = some .directory ∧ Utf8.size name.toList ≤ maxName ∧
      found = place ++ [name] := by
  rw [follow] at hfollow
  split at hfollow
  · cases hfollow
  · cases hfollow
  · rename_i hnode
    rw [if_neg (by simp [hempty, hhere]), if_neg hup] at hfollow
    split at hfollow
    · cases hfollow
    · rename_i hsize
      split at hfollow
      · exact ⟨hnode, Nat.not_lt.1 hsize, (Except.ok.inj hfollow).symm⟩
      · cases hfollow

theorem of_follow_here (hfollow : tree.follow place ["."] = .ok found) :
    tree.node? found = some .directory := by
  rw [follow] at hfollow
  split at hfollow
  · cases hfollow
  · cases hfollow
  · rename_i hnode
    cases hfollow
    exact hnode

theorem read_eq_ok_iff {p : Path} {bytes : List UInt8} : tree.read p = .ok bytes ↔
    ∃ found, tree.locate p = .ok found ∧ tree.node? found = some (.file bytes) := by
  simp only [read, bind_eq_ok_iff]
  refine exists_congr fun found => and_congr_right fun _ => ?_
  cases tree.node? found with
  | none => simp [throw_eq_ok_iff]
  | some node =>
    cases node with
    | directory => simp [throw_eq_ok_iff]
    | file content =>
      rw [Option.some.injEq, FileNode.file.injEq]
      exact pure_eq_ok_iff

/-- What is read under a name in a directory is a file of that name directly below it. -/
theorem exists_place_of_read {bytes : List UInt8} (hdir : dir.text ≠ "")
    (hslash : '/' ∉ name.toList) (hempty : name ≠ "") (hup : name ≠ "..")
    (hread : tree.read (dir.join ⟨name⟩) = .ok bytes) :
    IsFileName name ∧ ∃ place, tree.locate dir = .ok place ∧
      tree.node? place = some .directory ∧ tree.node? (place ++ [name]) = some (.file bytes) := by
  obtain ⟨found, hfound, hfile⟩ := read_eq_ok_iff.1 hread
  obtain ⟨⟨⟩, hcheck, hfollow⟩ := bind_eq_ok_iff.1 hfound
  obtain ⟨hcheck, hzero⟩ := check_of_check_join hdir hslash hcheck
  rw [follow_join hdir hslash, bind_eq_ok_iff] at hfollow
  obtain ⟨place, hplace, hfollow⟩ := hfollow
  have hhere : name ≠ "." := by
    -- a point stands for the directory itself, which is no file
    rintro rfl
    rw [of_follow_here hfollow] at hfile
    cases hfile
  obtain ⟨hnode, hsize, rfl⟩ := of_follow_name hempty hhere hup hfollow
  have hlocate : tree.locate dir = .ok place := bind_eq_ok_iff.2 ⟨(), hcheck, hplace⟩
  exact ⟨⟨hempty, hhere, hup, hslash, hzero, hsize⟩, place, hlocate, hnode, hfile⟩

end FileTree

end RadarFeed
