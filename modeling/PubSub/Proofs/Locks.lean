import PubSub.Proofs.Handle

/-!
# Connections to one database

Connections to one database see the same committed rows, and stand in each
other's way. As long as one of them is inside a transaction no other commits a
write: one that writes keeps the others from beginning, and one that reads keeps
them from committing.
-/

namespace PubSub

namespace World

section
variable {w : World} {k l : Nat} {h h' : Handle} (hm : ¬w.Apart k l)
  (hk : w.handle? k = some h) (hl : w.handle? l = some h')

include hm hk hl

theorem links_of_meets (hne : k ≠ l) :
    ∃ link link' db, w.database link.home = .ok db ∧ h.connection = w.connection k link ∧
      h'.connection = w.connection l link' ∧ link'.home = link.home ∧
      link' ∈ w.linksBeside k link.home := by
  obtain ⟨s, link, db, hs, hlk, hd, -, rfl⟩ := handle?_eq_some.mp hk
  obtain ⟨s', link', db', hs', hlk', -, -, rfl⟩ := handle?_eq_some.mp hl
  have hmeets : link.home.meets link'.home = true := by
    cases hb : link.home.meets link'.home with
    | true => rfl
    | false =>
      refine absurd ⟨hne, fun a ha b hb' => ?_⟩ hm
      simp only [home?, hs, hlk, hs', hlk', Option.bind_some, Option.map_some,
        Option.mem_some_iff] at ha hb'
      subst ha hb'
      exact hb
  refine ⟨link, link', db, hd, rfl, rfl, (Home.eq_of_meets hmeets).symm, ?_⟩
  unfold linksBeside
  refine List.mem_filter.mpr ⟨List.mem_filterMap.mpr ⟨(s', l), ?_, ?_⟩, ?_⟩
  · exact List.mem_zipIdx_iff_getElem?.mpr hs'
  · simp [hne.symm, hlk']
  · rw [Home.meets_comm]
    exact hmeets

theorem committed_eq_of_meets : h.connection.committed = h'.connection.committed := by
  by_cases hne : k = l
  · subst hne
    rw [hk, Option.some.injEq] at hl
    rw [hl]
  · obtain ⟨link, link', db, -, hc, hc', hh, -⟩ := links_of_meets hm hk hl hne
    rw [hc, hc']
    simp only [connection, hh]

theorem blocked_of_writing (hne : k ≠ l) (hw : h.connection.mayWrite = true)
    (hw' : h'.connection.mayWrite = true) (ho : h'.connection.working ≠ none) :
    h.connection.blocked ≠ none := by
  obtain ⟨link, link', db, hd, hc, hc', -, hmem⟩ := links_of_meets hm hk hl hne
  rw [hc] at hw ⊢
  rw [hc'] at hw' ho
  have hwriting : (w.linksBeside k link.home).any Link.isWriting = true :=
    List.any_eq_true.mpr ⟨link', hmem, by
      simp only [Link.isWriting, Bool.and_eq_true]
      exact ⟨hw', Option.isSome_iff_ne_none.mpr ho⟩⟩
  simp only [connection, blockedFor, hd, hwriting, Bool.or_true, Bool.and_true]
  rw [show link.mayWrite = true from hw]
  split <;> simp

theorem observed_of_reading (hne : k ≠ l) (hw' : h'.connection.mayWrite = false)
    (ho : h'.connection.working ≠ none) : h.connection.observed = true := by
  obtain ⟨link, link', db, -, hc, hc', -, hmem⟩ := links_of_meets hm hk hl hne
  rw [hc]
  rw [hc'] at hw' ho
  refine List.any_eq_true.mpr ⟨link', hmem, ?_⟩
  simp only [Link.isReading, Bool.and_eq_true, Bool.not_eq_true']
  exact ⟨hw', Option.isSome_iff_ne_none.mpr ho⟩

end

end World

end PubSub
