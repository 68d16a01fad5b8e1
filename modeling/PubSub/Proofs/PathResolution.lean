import Mathlib.Data.List.TakeWhile
import PubSub.Proofs.Storage

/-!
# Ways to files

A text leads to a file name by name, through folders. So the text of the folder around a
file leads to a folder, there is nothing to make on the way to a file that is there already
(`makeFolders_standing`), and the database that is opened under the text is the one that it
leads to (`openDatabase_standing`).
-/

namespace PubSub

open Text (Point)

/-! ## Names in texts -/

namespace Text

theorem name?_append {ps qs : List Point} {bytes : List UInt8} (h : name? (ps ++ qs) = some bytes) :
    ∃ front back, name? ps = some front ∧ name? qs = some back ∧ bytes = front ++ back := by
  unfold name? at h
  rw [List.mapM_append] at h
  cases hp : ps.mapM nameBytes? with
  | none => simp [hp] at h
  | some front =>
    cases hq : qs.mapM nameBytes? with
    | none => simp [hp, hq] at h
    | some back =>
      refine ⟨front.flatten, back.flatten, by simp [name?, hp], by simp [name?, hq], ?_⟩
      simpa [hp, hq, eq_comm] using h

theorem name?_cons {p : Point} {ps : List Point} {bytes : List UInt8}
    (h : name? (p :: ps) = some bytes) :
    ∃ first rest, nameBytes? p = some first ∧ bytes = first ++ rest := by
  unfold name? at h
  rw [List.mapM_cons] at h
  cases hp : nameBytes? p with
  | none => simp [hp] at h
  | some first =>
    cases hq : ps.mapM nameBytes? with
    | none => simp [hp, hq] at h
    | some rest => exact ⟨first, rest.flatten, rfl, by simpa [hp, hq, eq_comm] using h⟩

theorem nameBytes?_head {p : Point} {bytes : List UInt8} (h : nameBytes? p = some bytes) :
    ∃ b rest, bytes = b :: rest ∧ (b = Path.slash → p = .char '/') := by
  cases p with
  | half n =>
    simp only [nameBytes?, Option.ite_none_right_eq_some, Option.some.injEq] at h
    obtain ⟨⟨hlow, hhigh⟩, rfl⟩ := h
    refine ⟨_, [], rfl, fun hb => ?_⟩
    have := congrArg UInt8.toNat hb
    simp [Path.slash] at this
    omega
  | char c =>
    cases h
    have hn : c.val.toNat = 47 → Point.char c = .char '/' := fun hn =>
      congrArg Point.char (Char.ext (UInt32.toNat_inj.mp hn))
    have hlt : c.val.toNat < 0x110000 := by
      have := c.valid
      simp only [UInt32.isValidChar, Nat.isValidChar] at this
      omega
    unfold String.utf8EncodeChar
    simp only
    generalize c.val.toNat = n at hn hlt
    repeat' split
    all_goals
      refine ⟨_, _, rfl, fun hb => ?_⟩
      have hb := congrArg UInt8.toNat hb
      simp only [Path.slash, UInt8.toNat_ofNat', UInt8.reduceToNat] at hb
      simp (disch := omega) only [Nat.mod_eq_of_lt (b := 256)] at hb
      exact hn (by omega)

theorem name?_ne_nil {ps : List Point} {bytes : List UInt8} (h : name? ps = some bytes)
    (hne : ps ≠ []) : bytes ≠ [] := by
  obtain ⟨p, rest, rfl⟩ := List.exists_cons_of_ne_nil hne
  obtain ⟨first, more, hfirst, rfl⟩ := name?_cons h
  obtain ⟨b, _, rfl, -⟩ := nameBytes?_head hfirst
  simp

theorem name?_slashes {ps : List Point} (hs : ∀ p ∈ ps, p = .char '/') {bytes : List UInt8}
    (h : name? ps = some bytes) : ∀ b ∈ bytes, b = Path.slash := by
  have hall : ps = List.replicate ps.length (.char '/') := List.eq_replicate_of_mem hs
  rw [hall] at h
  generalize ps.length = n at h
  induction n generalizing bytes with
  | zero =>
    cases h
    simp
  | succ n ih =>
    have hslash : name? ([.char '/'] ++ List.replicate n (.char '/')) = some bytes := h
    obtain ⟨front, back, hfront, hback, rfl⟩ := name?_append hslash
    obtain rfl : front = [Path.slash] := (Option.some.inj hfront).symm
    intro b hb
    rcases List.mem_append.mp hb with hb | hb
    · exact List.mem_singleton.mp hb
    · exact ih hback b hb

end Text

namespace Path

theorem names_split (front back : List UInt8) :
    names (front ++ slash :: back) = names front ++ names back := by
  unfold names List.splitOn
  rw [List.splitOnP_append_cons _ _ (by simp), List.filter_append]

theorem names_slashes {slashes : List UInt8} (h : ∀ b ∈ slashes, b = slash) : names slashes = [] := by
  induction slashes with
  | nil => rfl
  | cons b rest ih =>
    obtain rfl := h b List.mem_cons_self
    exact (names_split [] rest).trans (ih fun b hb => h b (List.mem_cons_of_mem _ hb))

theorem names_append_slashes (front : List UInt8) {slashes : List UInt8}
    (h : ∀ b ∈ slashes, b = slash) : names (front ++ slashes) = names front := by
  cases slashes with
  | nil => rw [List.append_nil]
  | cons b rest =>
    obtain rfl := h b List.mem_cons_self
    rw [names_split, names_slashes fun b hb => h b (List.mem_cons_of_mem _ hb), List.append_nil]

theorem names_cons_ne_nil {b : UInt8} (hb : b ≠ slash) (bytes : List UInt8) :
    names (b :: bytes) ≠ [] := by
  unfold names List.splitOn
  rw [List.splitOnP_cons_eq_if_modifyHead]
  obtain ⟨first, rest, hs⟩ := List.exists_cons_of_ne_nil (List.splitOnP_ne_nil (· == slash) bytes)
  simp [hb, hs]

theorem origin_append {front : List UInt8} (h : front ≠ []) (back : List UInt8) :
    origin (front ++ back) = origin front := by
  obtain ⟨b, rest, rfl⟩ := List.exists_cons_of_ne_nil h
  rfl

theorem append_run {α : Type} (p : α → Bool) (l : List α) :
    (l.reverse.dropWhile p).reverse ++ (l.reverse.takeWhile p).reverse = l := by
  rw [← List.reverse_append, List.takeWhile_append_dropWhile, List.reverse_reverse]

theorem split_eq {text head tail : List Point} (h : split text = (head, tail)) :
    ∃ slashes, text = head ++ slashes ++ tail ∧ (∀ p ∈ slashes, p = .char '/') ∧
      (∀ p ∈ tail, p ≠ .char '/') ∧ (head ≠ [] → ∃ front, head ++ slashes = front ++ [.char '/']) := by
  let isSlash (p : Point) : Bool := p = .char '/'
  have hsplit := append_run (fun p => !isSlash p) text
  have htail : ∀ p ∈ (text.reverse.takeWhile fun p => !isSlash p).reverse, p ≠ .char '/' := by
    intro p hp
    simpa [isSlash] using List.mem_takeWhile_imp (List.mem_reverse.mp hp)
  have hfront := List.head?_dropWhile_not (fun p => !isSlash p) text.reverse
  unfold split at h
  change (let tail := (text.reverse.takeWhile fun p => !isSlash p).reverse
    let head := text.take (text.length - tail.length)
    (if head.all isSlash then head else (head.reverse.dropWhile isSlash).reverse, tail)) = _ at h
  generalize (text.reverse.takeWhile fun p => !isSlash p).reverse = back at hsplit htail h
  generalize text.reverse.dropWhile (fun p => !isSlash p) = front at hsplit hfront
  have htake : text.take (text.length - back.length) = front.reverse := by
    rw [← hsplit, List.length_append, Nat.add_sub_cancel, List.take_left]
  simp only [htake, Prod.mk.injEq] at h
  obtain ⟨hhead, rfl⟩ := h
  -- The slashes before the tail, unless there is nothing else before it.
  obtain ⟨slashes, hslashes, hall⟩ : ∃ slashes, head ++ slashes = front.reverse ∧
      ∀ p ∈ slashes, p = .char '/' := by
    split at hhead
    · exact ⟨[], by rw [List.append_nil, hhead], by simp⟩
    · refine ⟨_, hhead ▸ append_run isSlash front.reverse, fun p hp => ?_⟩
      simpa [isSlash] using List.mem_takeWhile_imp (List.mem_reverse.mp hp)
  refine ⟨slashes, by rw [hslashes, hsplit], hall, htail, fun hne => ?_⟩
  cases front with
  | nil => simp_all
  | cons p rest =>
    have hp : p = .char '/' := by simpa [isSlash] using hfront
    exact ⟨rest.reverse, by rw [hslashes, List.reverse_cons, hp]⟩

end Path

namespace Files

/-! ## Walks -/

section
variable {files : Files} {path place : Path} {names more : List (List UInt8)}

theorem walk_cons {name : List UInt8} (h : files.walk path (name :: names) = .ok place) :
    files.node? path = some .folder ∧ Path.isLongName name = false ∧
      files.walk (Path.step path name) names = .ok place := by
  unfold walk at h
  split at h
  · cases h
  · rename_i hn
    split at h
    · cases h
    · rename_i hl
      exact ⟨hn, by simpa using hl, h⟩
  · cases h

theorem walk_append (h : files.walk path (names ++ more) = .ok place) :
    ∃ middle, files.walk path names = .ok middle ∧ files.walk middle more = .ok place := by
  induction names generalizing path with
  | nil => exact ⟨path, rfl, h⟩
  | cons name rest ih =>
    obtain ⟨hn, hl, hrest⟩ := walk_cons h
    obtain ⟨middle, hm, hmore⟩ := ih hrest
    exact ⟨middle, by simp [walk, hn, hl, hm], hmore⟩

theorem walk_more {middle : Path} (h : files.walk path names = .ok middle) :
    files.walk path (names ++ more) = files.walk middle more := by
  induction names generalizing path with
  | nil =>
    cases h
    rfl
  | cons name rest ih =>
    obtain ⟨hn, hl, hrest⟩ := walk_cons h
    simpa [walk, hn, hl] using ih hrest

theorem walk_here (hn : files.node? path = some .folder) : files.walk path [Path.here] = .ok path := by
  have hl : Path.isLongName Path.here = false := by decide
  simp [walk, hn, hl, Path.step]

/-- Every place on the way to a place is a folder. -/
def Rooted (files : Files) (path : Path) : Prop :=
  ∀ front, front <+: path → front ≠ path → files.node? front = some .folder

theorem rooted_origin (bytes : List UInt8) : files.Rooted (Path.origin bytes) := by
  intro front hp hne
  have hnil : front = [] := by
    unfold Path.origin at hp hne
    split at hp
    · rename_i h
      rw [if_pos h, Path.top] at hne
      simp only [Path.top, List.prefix_cons_iff, List.prefix_nil] at hp
      rcases hp with hp | ⟨rest, rfl, rfl⟩
      · exact hp
      · exact absurd rfl hne
    · exact List.prefix_nil.mp hp
  simp [node?, hnil]

theorem Rooted.step (h : files.Rooted path) (hn : files.node? path = some .folder)
    (name : List UInt8) : files.Rooted (Path.step path name) := by
  intro front hp hne
  have hfolder : front <+: path → files.node? front = some .folder := fun hp => by
    by_cases he : front = path
    · rw [he, hn]
    · exact h front hp he
  unfold Path.step at hp hne
  split at hp
  · exact hfolder hp
  · split at hp
    · exact hfolder (hp.trans (List.dropLast_prefix path))
    · rename_i h₁ h₂
      rw [if_neg h₁, if_neg h₂] at hne
      rcases List.prefix_concat_iff.mp hp with hp | hp
      · exact absurd hp hne
      · exact hfolder hp

theorem Rooted.walk (h : files.Rooted path) (hw : files.walk path names = .ok place) :
    files.Rooted place := by
  induction names generalizing path with
  | nil =>
    cases hw
    exact h
  | cons name rest ih =>
    obtain ⟨hn, -, hrest⟩ := walk_cons hw
    exact ih (h.step hn name) hrest

/-- What is found on foot is found where two dots count as a step back. -/
theorem settle?_of_walk (h : files.walk path names = .ok place) :
    files.settle? path names = some place := by
  induction names generalizing path with
  | nil =>
    cases h
    rfl
  | cons name rest ih =>
    obtain ⟨hn, hl, hrest⟩ := walk_cons h
    have htold : (files.tells (Path.step path name) || decide (name = Path.here) ||
        decide (name = Path.around)) = true := by
      by_cases hh : name = Path.here
      · simp [hh]
      · by_cases ha : name = Path.around
        · simp [ha]
        · simp [tells, Path.step, hh, ha, hn, hl]
    unfold settle?
    simp only [htold, if_true]
    exact ih hrest

end

/-! ## Texts that lead somewhere -/

section
variable {files : Files} {text : List Point} {place : Path}

theorem name?_of_bytesOf {bytes : List UInt8} (h : bytesOf text = .ok bytes) :
    Text.name? text = some bytes ∧ bytes.contains 0 = false := by
  unfold bytesOf at h
  split at h
  · cases h
  · rename_i found hf
    split at h
    · cases h
    · rename_i hz
      cases h
      exact ⟨hf, by simpa using hz⟩

theorem reach_parts (h : files.reach text = .ok place) :
    ∃ bytes, bytesOf text = .ok bytes ∧ bytes ≠ [] ∧ Path.isLong bytes = false ∧
      files.walk (Path.origin bytes)
        (Path.names bytes ++ if endsInSlash bytes then [Path.here] else []) = .ok place := by
  unfold reach searched at h
  cases hb : bytesOf text with
  | error obstacle => simp [hb, bind, Except.bind] at h
  | ok bytes =>
    simp only [hb, bind, Except.bind] at h
    split at h
    · cases h
    · rename_i searched heq
      split at heq
      · cases heq
      · rename_i hne
        split at heq
        · cases heq
        · rename_i hl
          cases heq
          exact ⟨bytes, rfl, by simpa using hne, by simpa using hl, h⟩

theorem reach_of_parts {bytes : List UInt8} (hb : bytesOf text = .ok bytes) (hne : bytes ≠ [])
    (hl : Path.isLong bytes = false) : files.reach text = files.walk (Path.origin bytes)
      (Path.names bytes ++ if endsInSlash bytes then [Path.here] else []) := by
  have he : bytes.isEmpty = false := by simpa using hne
  unfold reach searched
  simp [hb, he, hl, bind, Except.bind, pure, Except.pure]

/-- The names that a walk takes along a text: those of the text before its last slash, and at least one
more. A slash at the end asks for one, too. -/
theorem names_of_split {head tail : List Point} {bytes : List UInt8}
    (hs : Path.split text = (head, tail)) (hne : head ≠ []) (hb : Text.name? text = some bytes) :
    ∃ front back, Text.name? head = some front ∧ front ≠ [] ∧ bytes = front ++ back ∧
      ∃ name names, (Path.names bytes ++ if endsInSlash bytes then [Path.here] else []) =
        Path.names front ++ name :: names := by
  obtain ⟨slashes, rfl, hslashes, htail, hlast⟩ := Path.split_eq hs
  obtain ⟨before, hbefore⟩ := hlast hne
  obtain ⟨start, last, hstart, hlast, rfl⟩ := Text.name?_append hb
  obtain ⟨front, slashBytes, hfront, hslash, rfl⟩ := Text.name?_append hstart
  obtain ⟨beforeBytes, slashByte, -, hbyte, hsame⟩ := Text.name?_append (hbefore ▸ hstart)
  obtain rfl : slashByte = [Path.slash] := (Option.some.inj hbyte).symm
  refine ⟨front, slashBytes ++ last, hfront, Text.name?_ne_nil hfront hne, List.append_assoc .., ?_⟩
  have hnames : Path.names (front ++ slashBytes ++ last) = Path.names front ++ Path.names last := by
    rw [← Path.names_append_slashes front (Text.name?_slashes hslashes hslash), hsame,
      Path.names_append_slashes beforeBytes (by simp), List.append_assoc, List.singleton_append,
      Path.names_split]
  cases tail with
  | nil =>
    obtain rfl : last = [] := (Option.some.inj hlast).symm
    have hends : endsInSlash (front ++ slashBytes ++ []) = true := by simp [endsInSlash, hsame]
    have hnil : Path.names [] = [] := rfl
    exact ⟨Path.here, [], by rw [hnames, hends, if_pos rfl, hnil, List.append_nil]⟩
  | cons p ps =>
    obtain ⟨first, more, hfirst, rfl⟩ := Text.name?_cons hlast
    obtain ⟨b, others, rfl, honly⟩ := Text.nameBytes?_head hfirst
    have hb : b ≠ Path.slash := fun he => htail p List.mem_cons_self (honly he)
    obtain ⟨name, names, hcons⟩ :=
      List.exists_cons_of_ne_nil (Path.names_cons_ne_nil hb (others ++ more))
    rw [hnames, List.cons_append, hcons, List.append_assoc, List.cons_append]
    exact ⟨name, _, rfl⟩

theorem found?_split (h : files.reach text = .ok place) {head tail : List Point}
    (hs : Path.split text = (head, tail)) (hne : head ≠ []) : files.found? head = some .folder := by
  obtain ⟨bytes, hbytes, -, hlong, hwalk⟩ := reach_parts h
  obtain ⟨hname, hzero⟩ := name?_of_bytesOf hbytes
  obtain ⟨front, back, hfront, hfrontNe, rfl, name, names, hnames⟩ := names_of_split hs hne hname
  rw [hnames, Path.origin_append hfrontNe] at hwalk
  obtain ⟨middle, hmiddle, hrest⟩ := walk_append hwalk
  have hfolder := (walk_cons hrest).1
  have hfrontBytes : bytesOf head = .ok front := by
    have hz : front.contains 0 = false := by
      rw [← Bool.not_eq_true, List.contains_iff_mem] at hzero ⊢
      exact fun hin => hzero (List.mem_append_left _ hin)
    simp only [bytesOf, hfront, hz, Bool.false_eq_true, if_false]
  have hfrontLong : Path.isLong front = false := by
    simp only [Path.isLong, decide_eq_false_iff_not, List.length_append] at hlong ⊢
    omega
  have hreach : files.reach head = .ok middle := by
    rw [reach_of_parts hfrontBytes hfrontNe hfrontLong, walk_more hmiddle]
    split
    · exact walk_here hfolder
    · rfl
  simp only [found?, hreach, hfolder]

theorem reach_of_found? {n : Node} (h : files.found? text = some n) :
    ∃ place, files.reach text = .ok place ∧ files.node? place = some n := by
  unfold found? at h
  split at h
  · rename_i place hr
    exact ⟨place, hr, h⟩
  · cases h

theorem found?_here (files : Files) : files.found? [.char '.'] = some .folder := rfl

theorem folder_of_reach (h : files.reach text = .ok place) (hne : place ≠ []) :
    files.node? place.dropLast = some .folder := by
  obtain ⟨bytes, -, -, -, hwalk⟩ := reach_parts h
  refine (rooted_origin bytes).walk hwalk _ (List.dropLast_prefix place) fun he => hne ?_
  have := congrArg List.length he
  rw [List.length_dropLast] at this
  exact List.length_eq_zero_iff.mp (by omega)

theorem databasePlace?_of_reach (h : files.reach text = .ok place)
    (hn : files.node? place ≠ some .folder) {bytes : List UInt8} (hb : bytesOf text = .ok bytes) :
    files.databasePlace? bytes = some place := by
  obtain ⟨bytes', hb', -, -, hwalk⟩ := reach_parts h
  obtain rfl : bytes = bytes' := Except.ok.inj (hb.symm.trans hb')
  split at hwalk
  · obtain ⟨middle, -, hlast⟩ := walk_append hwalk
    obtain ⟨hfolder, -, hsame⟩ := walk_cons hlast
    obtain rfl : middle = place := by simpa [Path.step, walk] using hsame
    exact absurd hfolder hn
  · rw [List.append_nil] at hwalk
    exact settle?_of_walk hwalk

/-! ## Folders that are there -/

theorem makeLast_standing (h : files.found? text = some .folder) :
    (files.makeLast true text).2 = none := by
  unfold makeLast
  split
  · rfl
  · simp [h, Node.isFolder]

theorem makeAll_standing (h : files.found? text = some .folder) (fuel : Nat) :
    (files.makeAll true fuel text).2 = none := by
  cases fuel with
  | zero => rfl
  | succ fuel =>
    have hlast := makeLast_standing h
    obtain ⟨place, hr, -⟩ := reach_of_found? h
    have hhead : (Path.splitLast text).1 ≠ [] →
        files.found? (Path.splitLast text).1 = some .folder := by
      intro hne
      unfold Path.splitLast at hne ⊢
      rcases hs : Path.split text with ⟨head, tail⟩
      simp only [hs] at hne ⊢
      split
      · rename_i ht
        rw [if_pos ht] at hne
        have hnonempty : head ≠ [] := by
          rintro rfl
          exact hne rfl
        obtain ⟨_, hr', -⟩ := reach_of_found? (found?_split hr hs hnonempty)
        exact found?_split hr' rfl hne
      · rename_i ht
        rw [if_neg ht] at hne
        exact found?_split hr hs hne
    unfold makeAll
    simp only
    split
    · exact hlast
    · rename_i hmissing
      simp only [Bool.or_eq_true, List.isEmpty_iff, not_or] at hmissing
      rw [hhead hmissing.1.1] at hmissing
      simp at hmissing

theorem makeFolders_standing (h : files.reach text = .ok place) :
    (files.makeFolders true (Path.folderText text)).2 = none := by
  refine makeAll_standing ?_ _
  unfold Path.folderText
  simp only
  split
  · exact found?_here files
  · rename_i hne
    exact found?_split h rfl (by simpa using hne)

end

/-! ## Files that are added -/

/-- Only folders and files that nothing was written to have been added. -/
def Grows (files files' : Files) : Prop :=
  ∀ p, files'.node? p = files.node? p ∨ files.node? p = none ∧
    (files'.node? p = some .folder ∨ files'.node? p = some (.database .blank))

section
variable {files files' files'' : Files} {path place : Path}

theorem Grows.refl (files : Files) : files.Grows files := fun _ => .inl rfl

theorem Grows.trans (h : files.Grows files') (h' : files'.Grows files'') : files.Grows files'' := by
  intro p
  rcases h p with hp | ⟨hp, hnew⟩ <;> rcases h' p with hp' | ⟨hp', hnew'⟩
  · exact .inl (hp'.trans hp)
  · exact .inr ⟨hp.symm.trans hp', hnew'⟩
  · rw [← hp'] at hnew
    exact .inr ⟨hp, hnew⟩
  · exact .inr ⟨hp, hnew'⟩

theorem Grows.node (h : files.Grows files') {n : Node} (hn : files.node? path = some n) :
    files'.node? path = some n := by
  rcases h path with hp | ⟨hp, -⟩
  · exact hp.trans hn
  · rw [hn] at hp
    cases hp

theorem Grows.database (h : files.Grows files') (path : Path) :
    files'.database path = files.database path := by
  unfold Files.database
  rcases h path with hp | ⟨hp, hnew | hnew⟩
  · rw [hp]
  · rw [hp, hnew]
  · rw [hp, hnew]

theorem grows_put (hm : files.node? path = none) {n : Node} (hn : n = .folder ∨ n = .database .blank) :
    files.Grows (files.put path n) := by
  intro p
  by_cases hp : p = path
  · subst hp
    have hne : ¬(p = [] ∨ p = Path.top) := fun he => by simp [node?, he] at hm
    have hput : (files.put p n).node? p = some n := by
      rw [node?, if_neg hne, lookup_put_self]
    rw [hput]
    exact .inr ⟨hm, hn.imp (congrArg some) (congrArg some)⟩
  · refine .inl ?_
    unfold node?
    rw [lookup_put_of_ne files hp]

theorem grows_makeOne {text : List Point} (h : files.makeOne text = .ok files') :
    files.Grows files' := by
  simp only [makeOne, bind, Except.bind, pure, Except.pure, throw, throwThe, MonadExceptOf.throw] at h
  split at h
  · cases h
  · split at h
    · cases h
    · split at h
      · cases h
      · split at h
        · cases h
        · rename_i hm
          cases h
          exact grows_put (by simpa using hm) (.inl rfl)

theorem grows_makeLast (files : Files) (mayStand : Bool) (text : List Point) :
    files.Grows (files.makeLast mayStand text).1 := by
  unfold makeLast
  split
  · rename_i h
    exact grows_makeOne h
  · split <;> exact .refl files

theorem grows_makeAll (files : Files) (mayStand : Bool) (fuel : Nat) (text : List Point) :
    files.Grows (files.makeAll mayStand fuel text).1 := by
  induction fuel generalizing text with
  | zero => exact .refl files
  | succ fuel ih =>
    have hhead := ih (Path.splitLast text).1
    unfold makeAll
    simp only
    split
    · exact grows_makeLast files mayStand text
    · split
      · rename_i heq
        rw [heq] at hhead
        split
        · exact hhead
        · exact hhead.trans (grows_makeLast _ mayStand text)
      · rename_i heq
        rw [heq] at hhead
        split
        · exact hhead
        · exact hhead.trans (grows_makeLast _ mayStand text)
      · rename_i heq
        rwa [heq] at hhead

theorem grows_makeFolders (files : Files) (mayStand : Bool) (text : List Point) :
    files.Grows (files.makeFolders mayStand text).1 := grows_makeAll files mayStand _ text

theorem grows_openDatabase {a : Address} (h : files.openDatabase a path = .ok files') :
    files.Grows files' := by
  unfold openDatabase at h
  split at h
  · rename_i hm
    split at h
    · cases h
      exact grows_put hm (.inr rfl)
    · cases h
  · cases h
  · cases h
    exact .refl files
  · cases h
    exact .refl files
  · cases h

theorem Grows.walk (h : files.Grows files') {names : List (List UInt8)}
    (hw : files.walk path names = .ok place) : files'.walk path names = .ok place := by
  induction names generalizing path with
  | nil => exact hw
  | cons name rest ih =>
    obtain ⟨hn, hl, hrest⟩ := walk_cons hw
    simpa [Files.walk, h.node hn, hl] using ih hrest

theorem Grows.reach (h : files.Grows files') {text : List Point} (hr : files.reach text = .ok place) :
    files'.reach text = .ok place := by
  obtain ⟨bytes, hb, hne, hl, hw⟩ := reach_parts hr
  rw [reach_of_parts hb hne hl]
  exact h.walk hw

theorem openDatabase_standing (hfolder : files.node? place.dropLast = some .folder) {db : Database}
    (hn : files.node? place = some (.database db)) (a : Address) :
    files.openDatabase a place = .ok files := by
  unfold openDatabase
  rw [hfolder, hn]

theorem keeps_of_openDatabase {a : Address} (h : files.openDatabase a path = .ok files') :
    (Home.file path).keeps = true := by
  by_contra hk
  have hp : path = [] ∨ path = Path.top := by
    simpa [Home.keeps, Decidable.or_iff_not_imp_left] using hk
  have hn : files.node? path = some .folder := by simp [node?, hp]
  unfold openDatabase at h
  rw [hn] at h
  split at h <;> simp_all

end

end Files

end PubSub
