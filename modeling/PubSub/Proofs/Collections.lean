import PubSub.Proofs.Expositions
import PubSub.Session

/-!
# Collections of metrics

Each use of a collection changes one of its entries at the most. So after any uses a counter stands at
the sum of what was added to it and a gauge at the value that it was set to last (`After.run`).
Whatever a collection answers is read off these: its document, what it gives under a name, and its
text for a scraper, in which every number is read as it is (`uses_read_back`). There is no text if
some number has more digits than are written.
-/

namespace PubSub

open Exposition (Family Reading IsWord)

/-! ## Uses -/

/-- What one does with a collection that holds whole numbers. -/
inductive Use where
  | inc (name : String) (n : Int)
  | set (name : String) (n : Int)
  | get (name : String)

namespace Use

def added? (name : String) : Use → Option Int
  | .inc other n => if other = name then some n else none
  | _ => none

def assigned? (name : String) : Use → Option Int
  | .set other n => if other = name then some n else none
  | _ => none

def additions (uses : List Use) (name : String) : List Int := uses.filterMap (added? name)

def values (uses : List Use) (name : String) : List Int := uses.filterMap (assigned? name)

/-- A counter is there as soon as something was added to it, even if that was nothing. -/
def sum? (uses : List Use) (name : String) : Option Int :=
  if additions uses name = [] then none else some (additions uses name).sum

def last? (uses : List Use) (name : String) : Option Int := (values uses name).getLast?

section
variable {uses : List Use} {name : String} {v : Int}

theorem sum?_eq_some :
    sum? uses name = some v ↔ additions uses name ≠ [] ∧ v = (additions uses name).sum := by
  rw [sum?, Option.ite_none_left_eq_some, Option.some.injEq, eq_comm (a := v)]

theorem added?_eq_some {use : Use} : use.added? name = some v ↔ use = .inc name v := by
  cases use <;> simp [added?]

theorem assigned?_eq_some {use : Use} : use.assigned? name = some v ↔ use = .set name v := by
  cases use <;> simp [assigned?]

theorem exists_of_sum? (h : sum? uses name = some v) : ∃ n, .inc name n ∈ uses := by
  obtain ⟨n, hn⟩ := List.exists_mem_of_ne_nil _ (sum?_eq_some.mp h).1
  obtain ⟨use, huse, hadded⟩ := List.mem_filterMap.mp hn
  exact ⟨n, added?_eq_some.mp hadded ▸ huse⟩

theorem mem_of_last? (h : last? uses name = some v) : .set name v ∈ uses := by
  obtain ⟨use, huse, hassigned⟩ := List.mem_filterMap.mp (List.mem_of_getLast? h)
  exact assigned?_eq_some.mp hassigned ▸ huse

end

section
variable (uses : List Use) (name : String) (n : Int) (other : String)

theorem sum?_inc : sum? (uses ++ [.inc name n]) other =
    if other = name then some ((sum? uses name).getD 0 + n) else sum? uses other := by
  by_cases h : other = name
  · subst h
    have hadditions : additions (uses ++ [.inc other n]) other = additions uses other ++ [n] := by
      simp [additions, added?]
    rw [if_pos rfl, sum?, hadditions, sum?]
    -- The first addition makes the counter, every other one moves it.
    by_cases he : additions uses other = []
    · simp [he]
    · simp [he]
  · simp [sum?, additions, added?, h, Ne.symm h]

theorem last?_set : last? (uses ++ [.set name n]) other =
    if other = name then some n else last? uses other := by
  by_cases h : other = name
  · simp [last?, values, assigned?, h]
  · simp [last?, values, assigned?, h, Ne.symm h]

variable {uses} {use : Use}

theorem sum?_of_added? (h : ∀ name, use.added? name = none) : sum? (uses ++ [use]) = sum? uses := by
  funext name
  simp [sum?, additions, h]

theorem last?_of_assigned? (h : ∀ name, use.assigned? name = none) :
    last? (uses ++ [use]) = last? uses := by
  funext name
  simp [last?, values, h]

end

/-- Whatever is written has a word for a name, such as letters, digits and underscores, and no gauge has
the name of the uptime. -/
def Legible : Use → Prop
  | .inc name _ => IsWord name.toList
  | .set name _ => IsWord name.toList ∧ name ≠ "uptime_seconds"
  | .get _ => True

instance : (use : Use) → Decidable use.Legible
  | .inc _ _ => inferInstanceAs (Decidable (IsWord _))
  | .set _ _ => inferInstanceAs (Decidable (IsWord _ ∧ _ ≠ _))
  | .get _ => inferInstanceAs (Decidable True)

def apply (m : Metrics) : Use → Metrics
  | .inc name n => m.add name n
  | .set name n => m.set name (.whole n)
  | .get _ => m

end Use

/-! ## Entries by name -/

namespace Metrics

/-- A list of named values that gives each name its value, with the prefix that all names have. -/
structure Holds {α : Type} (l : List (String × α)) (value? : String → Option α) : Prop where
  distinct : (l.map (·.1)).Nodup
  prefixed : ∀ k ∈ l.map (·.1), ∃ name, k = fullName name
  found : ∀ name, l.lookup (fullName name) = value? name

namespace Holds

variable {α : Type} {l : List (String × α)} {value? : String → Option α}

theorem put (h : Holds l value?) (name : String) (v : α) {value?' : String → Option α}
    (hv : ∀ other, value?' other = if other = name then some v else value? other) :
    Holds (put (fullName name) v l) value?' := by
  refine ⟨?_, ?_, fun other => ?_⟩
  · rw [keys_put]
    split
    · exact h.distinct
    · rename_i hnew
      exact List.concat_eq_append ▸ h.distinct.concat hnew
  · rw [keys_put]
    split
    · exact h.prefixed
    · intro k hk
      rcases List.mem_append.mp hk with hk | hk
      · exact h.prefixed k hk
      · exact ⟨name, List.mem_singleton.mp hk⟩
  · rw [lookup_put, hv, h.found]
    simp only [fullName_injective]

theorem mem (h : Holds l value?) {k : String} {v : α} :
    (k, v) ∈ l ↔ ∃ name, k = fullName name ∧ value? name = some v := by
  constructor
  · intro hm
    obtain ⟨name, rfl⟩ := h.prefixed k (List.mem_map.mpr ⟨_, hm, rfl⟩)
    exact ⟨name, rfl, (h.found name).symm.trans (Report.lookup_of_nodup h.distinct hm)⟩
  · rintro ⟨name, rfl, hv⟩
    obtain ⟨before, rest, rfl, -⟩ := List.lookup_eq_some_iff.mp ((h.found name).trans hv)
    simp

end Holds

/-! ## Runs -/

/-- A collection after some uses, with its gauges as numbers. -/
structure After (m : Metrics) (start : Float) (uses : List Use) (gauges : List (String × Int)) :
    Prop where
  started : m.started = start
  counters : Holds m.counters (Use.sum? uses)
  whole : m.gauges = gauges.map fun g => (g.1, .whole g.2)
  gauges : Holds gauges (Use.last? uses)

theorem after_none (start : Float) : (startedAt start).After start [] [] :=
  ⟨rfl, ⟨List.nodup_nil, nofun, fun _ => rfl⟩, rfl, ⟨List.nodup_nil, nofun, fun _ => rfl⟩⟩

theorem map_put {α β : Type} (f : α → β) (name : String) (v : α) (l : List (String × α)) :
    (put name v l).map (fun p => (p.1, f p.2)) = put name (f v) (l.map fun p => (p.1, f p.2)) := by
  induction l with
  | nil => rfl
  | cons entry rest ih =>
    obtain ⟨k, w⟩ := entry
    simp only [put, List.map_cons]
    split
    · rfl
    · rw [List.map_cons, ih]

namespace After

variable {m : Metrics} {start : Float} {uses : List Use} {gauges : List (String × Int)}

theorem use (h : m.After start uses gauges) (use : Use) :
    ∃ gauges', (use.apply m).After start (uses ++ [use]) gauges' := by
  cases use with
  | inc name n =>
    refine ⟨gauges, h.started, ?_, h.whole, ?_⟩
    · have hput : (m.add name n).counters =
          put (fullName name) ((Use.sum? uses name).getD 0 + n) m.counters := by
        rw [add, addTo_eq_put, h.counters.found]
      exact hput ▸ h.counters.put name _ (Use.sum?_inc uses name n)
    · rw [Use.last?_of_assigned? fun _ => rfl]
      exact h.gauges
  | set name n =>
    refine ⟨put (fullName name) n gauges, h.started, ?_, ?_, ?_⟩
    · rw [Use.sum?_of_added? fun _ => rfl]
      exact h.counters
    -- The gauges of the collection hold the numbers of the list, also after the change.
    · rw [map_put Sample.whole, ← h.whole]
      exact setIn_eq_put _ _ _
    · exact h.gauges.put name n (Use.last?_set uses name n)
  | get name =>
    refine ⟨gauges, h.started, ?_, h.whole, ?_⟩
    · rw [Use.sum?_of_added? fun _ => rfl]
      exact h.counters
    · rw [Use.last?_of_assigned? fun _ => rfl]
      exact h.gauges

theorem run (h : m.After start uses gauges) (more : List Use) :
    ∃ gauges', (more.foldl Use.apply m).After start (uses ++ more) gauges' := by
  induction more generalizing m uses gauges with
  | nil => exact ⟨gauges, by simpa using h⟩
  | cons use more ih =>
    obtain ⟨gauges₁, h₁⟩ := h.use use
    obtain ⟨gauges₂, h₂⟩ := ih h₁
    exact ⟨gauges₂, by simpa using h₂⟩

end After

end Metrics

/-! ## What is read -/

namespace Exposition

def shown (counters gauges : List (String × Int)) (uptime : Float) : List (Family Reading) :=
  counters.map (fun c => ⟨"counter", c.1, .whole c.2⟩) ++
  gauges.map (fun g => ⟨"gauge", g.1, .whole g.2⟩) ++
  [⟨"gauge", Metrics.fullName "uptime_seconds", .other (Decimal.tenthsText uptime)⟩]

theorem nodup_shown {counters gauges : List (String × Int)} (hc : (counters.map (·.1)).Nodup)
    (hg : (gauges.map (·.1)).Nodup)
    (hu : Metrics.fullName "uptime_seconds" ∉ gauges.map (·.1)) (uptime : Float) :
    ((shown counters gauges uptime).map fun f => (f.kind, f.name)).Nodup := by
  have hfamilies : (shown counters gauges uptime).map (fun f => (f.kind, f.name)) =
      (counters.map (·.1)).map (Prod.mk "counter") ++
      ((gauges.map (·.1)).concat (Metrics.fullName "uptime_seconds")).map (Prod.mk "gauge") := by
    simp [shown, Function.comp_def]
  have hkind : ∀ kind : String, Function.Injective (Prod.mk kind : String → String × String) :=
    fun kind => Prod.mk_right_injective kind
  rw [hfamilies]
  refine (hc.map (hkind _)).append ((hg.concat hu).map (hkind _)) ?_
  intro p hp hq
  obtain ⟨name, -, rfl⟩ := List.mem_map.mp hp
  simp at hq

end Exposition

namespace Metrics.After

variable {m : Metrics} {start : Float} {uses : List Use} {gauges : List (String × Int)}
  (h : m.After start uses gauges)

include h

theorem hasLong_iff : m.hasLong = true ↔
    ∃ e ∈ m.counters ++ gauges, Decimal.tenTo Decimal.digitLimit ≤ e.2.natAbs := by
  simp only [hasLong, h.whole, List.any_map, Bool.or_eq_true, List.any_eq_true, List.mem_append,
    Function.comp_apply, Sample.isLong, Decimal.isLong_iff, or_and_right, exists_or]

theorem get (name : String) :
    m.get name = .whole ((Use.last? uses name).getD (Use.additions uses name).sum) := by
  have hgauge : m.gauges.lookup (fullName name) = (Use.last? uses name).map .whole := by
    rw [h.whole, ← h.gauges.found]
    exact Report.lookup_map Function.injective_id gauges Sample.whole (fullName name)
  have hcounter : (m.counters.lookup (fullName name)).getD 0 = (Use.additions uses name).sum := by
    rw [h.counters.found, Use.sum?]
    split <;> simp [*]
  rw [Metrics.get, hgauge, hcounter]
  cases Use.last? uses name <;> rfl

theorem isClear (hu : ∀ use ∈ uses, use.Legible) (now : Float) : ∀ f ∈ m.families now, f.IsClear := by
  have hword : ∀ name : String, IsWord name.toList → IsWord (fullName name).toList := by
    intro name hname
    rw [fullName, String.toList_append]
    exact Exposition.isWord_append.mpr ⟨by decide, hname⟩
  have htext : ∀ n, IsWord (Decimal.text n).toList := fun n => by
    rw [Decimal.text, String.toList_ofList]
    exact Exposition.isWord_signed n
  have hcounter : IsWord "counter".toList := by decide
  have hgauge : IsWord "gauge".toList := by decide
  have huptime : IsWord (fullName "uptime_seconds").toList := by decide
  intro f hf
  simp only [families, List.mem_append, List.mem_map, List.mem_mergeSort, List.mem_singleton] at hf
  rcases hf with (⟨⟨k, n⟩, hm, rfl⟩ | ⟨⟨k, value⟩, hm, rfl⟩) | rfl
  · obtain ⟨name, rfl, hv⟩ := h.counters.mem.mp hm
    obtain ⟨n', huse⟩ := Use.exists_of_sum? hv
    exact ⟨hcounter, hword name (hu _ huse), htext n⟩
  · rw [h.whole] at hm
    obtain ⟨⟨k', n⟩, hg, he⟩ := List.mem_map.mp hm
    cases he
    obtain ⟨name, rfl, hv⟩ := h.gauges.mem.mp hg
    exact ⟨hgauge, hword name (hu _ (Use.mem_of_last? hv)).1, htext n⟩
  · exact ⟨hgauge, huptime, Exposition.isWord_tenthsText _⟩

theorem read?_exposition (hu : ∀ use ∈ uses, use.Legible) (now : Float) :
    Exposition.read? (m.exposition now) = some (Exposition.shown (m.counters.mergeSort byName)
      (gauges.mergeSort byName) (now - start)) := by
  have hsorted : m.gauges.mergeSort byName =
      (gauges.mergeSort byName).map fun g => (g.1, Sample.whole g.2) := by
    rw [h.whole]
    refine (List.map_mergeSort (f := fun g : String × Int => (g.1, Sample.whole g.2)) ?_).symm
    exact fun _ _ _ _ => rfl
  rw [Metrics.read?_exposition (h.isClear hu now), families, hsorted, h.started]
  simp [Exposition.shown, Family.read, Exposition.reading_text, Exposition.reading_tenthsText,
    Sample.text, Function.comp_def]

end Metrics.After

/-! ## Sessions -/

def Use.step (on : String) : Use → Step
  | .inc name n => .addMetric on name n
  | .set name n => .setMetric on name (.whole n)
  | .get name => .getMetric on name

namespace Session

def Collects (s : Session) (on : String) (m : Metrics) : Prop :=
  ∃ i store, s.names.lookup on = some i ∧ s.world.stores[i]? = some store ∧ store.metrics = m

theorem collects_make (s : Session) (on path : String) :
    (s.make on path).1.Collects on (.startedAt s.world.clock) := by
  refine ⟨s.world.stores.length,
    ⟨Text.points path, none, 0, false, .startedAt s.world.clock⟩, ?_, ?_, rfl⟩
  · simp [make, World.addStore]
  · simp [make, World.addStore]

section
variable {s : Session} {on : String} {m : Metrics} (h : s.Collects on m)

include h

theorem step_getMetric (name : String) :
    s.step (.getMetric on name) = (s, .document (m.get name).document) := by
  obtain ⟨i, store, hi, hs, rfl⟩ := h
  simp [step, simple, Session.store, hi, metricsOf, hs]

theorem step_metrics : s.step (.metrics on) = (s, .document (m.document s.world.clock)) := by
  obtain ⟨i, store, hi, hs, rfl⟩ := h
  simp [step, simple, Session.store, hi, metricsOf, hs]

theorem step_exposition : s.step (.exposition on) = (s, .ofExcept .text (m.scrape s.world.clock)) := by
  obtain ⟨i, store, hi, hs, rfl⟩ := h
  simp [step, simple, Session.store, hi, metricsOf, hs]

theorem collects_use (use : Use) : (s.step (use.step on)).1.Collects on (use.apply m) := by
  have hchange : ∀ f : Metrics → Metrics,
      (s.onStore on fun w i => (w.setMetrics i f, Answer.done)).1.Collects on (f m) := by
    obtain ⟨i, store, hi, hs, rfl⟩ := h
    intro f
    refine ⟨i, { store with metrics := f store.metrics }, ?_, ?_, rfl⟩
    · simp [onStore, Session.store, hi]
    · simpa [onStore, Session.store, hi] using World.store_setMetrics hs f
  cases use with
  | inc name n => exact hchange (·.add name n)
  | set name n => exact hchange (·.set name (.whole n))
  | get name => exact (step_getMetric h name).symm ▸ h

theorem collects_uses (uses : List Use) :
    (s.steps (uses.map (Use.step on))).1.Collects on (uses.foldl Use.apply m) := by
  induction uses generalizing s m with
  | nil => exact h
  | cons use uses ih => exact ih (collects_use h use)

end

/-- What the collection of a store answers, if these are its counters and its gauges. -/
structure Shows (s : Session) (on : String) (start : Float) (counters gauges : List (String × Int)) :
    Prop where
  ascending : (counters.map (·.1)).Pairwise (· < ·) ∧ (gauges.map (·.1)).Pairwise (· < ·)
  once : ((Exposition.shown counters gauges (s.world.clock - start)).map
    fun f => (f.kind, f.name)).Nodup
  document : ∃ cs gs : List (String × Int), cs.Perm counters ∧ gs.Perm gauges ∧
    s.step (.metrics on) = (s, .document (.record [
      ("counters", .record (cs.map fun c => (c.1, .int c.2))),
      ("gauges", .record (gs.map fun g => (g.1, .int g.2))),
      ("uptime_seconds", .float (s.world.clock - start))]))
  text : (∀ e ∈ counters ++ gauges, e.2.natAbs < Decimal.tenTo Decimal.digitLimit) →
    ∃ text, s.step (.exposition on) = (s, .text text) ∧ Exposition.read? text =
      some (Exposition.shown counters gauges (s.world.clock - start))
  /-- A number is too long to be written. -/
  noText : (∃ e ∈ counters ++ gauges, Decimal.tenTo Decimal.digitLimit ≤ e.2.natAbs) →
    s.step (.exposition on) = (s, .failed .unwritable)

theorem shows_after {s : Session} {on : String} {m : Metrics} (hs : s.Collects on m) {start : Float}
    {uses : List Use} {gauges : List (String × Int)} (h : m.After start uses gauges)
    (hu : ∀ use ∈ uses, use.Legible) :
    s.Shows on start (m.counters.mergeSort Metrics.byName) (gauges.mergeSort Metrics.byName) := by
  have hcs := List.mergeSort_perm m.counters Metrics.byName
  have hgs := List.mergeSort_perm gauges Metrics.byName
  have hentries := hcs.append hgs
  have huptime : Metrics.fullName "uptime_seconds" ∉ gauges.map (·.1) := by
    intro hm
    obtain ⟨⟨k, v⟩, hg, hk⟩ := List.mem_map.mp hm
    obtain ⟨name, rfl, hv⟩ := h.gauges.mem.mp hg
    obtain rfl := Metrics.fullName_injective.mp hk
    exact (hu _ (Use.mem_of_last? hv)).2 rfl
  constructor
  · exact ⟨ascending_mergeSort h.counters.distinct, ascending_mergeSort h.gauges.distinct⟩
  · refine Exposition.nodup_shown ?_ ?_ ?_ _
    · exact (hcs.map _).nodup_iff.mpr h.counters.distinct
    · exact (hgs.map _).nodup_iff.mpr h.gauges.distinct
    · exact fun hm => huptime ((hgs.map _).mem_iff.mp hm)
  · refine ⟨m.counters, gauges, hcs.symm, hgs.symm, ?_⟩
    rw [step_metrics hs, Metrics.document, h.whole, h.started]
    simp [Function.comp_def, Sample.document]
  · intro hshort
    have hfits : m.hasLong = false := by
      rw [Bool.eq_false_iff, ne_eq, h.hasLong_iff]
      rintro ⟨e, he, hlong⟩
      exact absurd (hshort e (hentries.mem_iff.mpr he)) hlong.not_gt
    refine ⟨_, ?_, h.read?_exposition hu s.world.clock⟩
    rw [step_exposition hs, Metrics.scrape, hfits]
    rfl
  · rintro ⟨e, he, hlong⟩
    have hlong : m.hasLong = true := h.hasLong_iff.mpr ⟨e, hentries.mem_iff.mp he, hlong⟩
    rw [step_exposition hs, Metrics.scrape, hlong]
    rfl

theorem noText_of_sum {s : Session} {on : String} {start : Float}
    (hs : s.Collects on (.startedAt start)) {uses : List Use} (hu : ∀ use ∈ uses, use.Legible)
    {name : String} (hlong : Decimal.tenTo Decimal.digitLimit ≤ (Use.additions uses name).sum.natAbs) :
    ((s.steps (uses.map (Use.step on))).1.step (.exposition on)).2 = .failed .unwritable := by
  obtain ⟨gauges, h⟩ := (Metrics.after_none start).run uses
  rw [List.nil_append] at h
  have hadded : Use.additions uses name ≠ [] := by
    intro he
    have := Decimal.tenTo_pos Decimal.digitLimit
    simp [he] at hlong
    omega
  have hm := h.counters.mem.mpr ⟨name, rfl, Use.sum?_eq_some.mpr ⟨hadded, rfl⟩⟩
  have hshows := shows_after (collects_uses hs uses) h hu
  rw [hshows.noText ⟨_, List.mem_append_left _ (List.mem_mergeSort.mpr hm), hlong⟩]

/-- Whatever is added to counters and set in gauges under names that are words, the collection shows
every counter with its sum and every gauge with its last value, and so does its text, as far as
numbers of that length are written. What one gets under a name is the value of its gauge, else the sum
of its counter, else zero, and to get it changes nothing. -/
theorem uses_read_back {s : Session} {on : String} {start : Float}
    (hs : s.Collects on (.startedAt start)) {uses : List Use} (hu : ∀ use ∈ uses, use.Legible) :
    let after := (s.steps (uses.map (Use.step on))).1
    ∃ counters gauges : List (String × Int),
      (∀ k v, (k, v) ∈ counters ↔ ∃ name, k = Metrics.fullName name ∧
        Use.additions uses name ≠ [] ∧ v = (Use.additions uses name).sum) ∧
      (∀ k v, (k, v) ∈ gauges ↔ ∃ name, k = Metrics.fullName name ∧
        (Use.values uses name).getLast? = some v) ∧
      after.Shows on start counters gauges ∧
      ∀ name, after.step (.getMetric on name) = (after, .document (.int
        ((Use.values uses name).getLast?.getD (Use.additions uses name).sum))) := by
  intro after
  have hafter : after.Collects on (uses.foldl Use.apply (.startedAt start)) := collects_uses hs uses
  obtain ⟨gauges, h⟩ := (Metrics.after_none start).run uses
  rw [List.nil_append] at h
  refine ⟨_, _, fun k v => ?_, fun k v => ?_, shows_after hafter h hu, fun name => ?_⟩
  · rw [List.mem_mergeSort, h.counters.mem]
    simp only [Use.sum?_eq_some]
  · rw [List.mem_mergeSort, h.gauges.mem]
    rfl
  · rw [step_getMetric hafter, h.get]
    rfl

/-- A counter that comes to nothing, a gauge of the same name below zero, and another counter. -/
def mixedUses : List Use := [.inc "b" 5, .inc "a" 2, .set "a" 1, .inc "a" (-2), .get "a", .set "a" (-7)]

theorem uses_read_back_mixedUses :
    let after := ((empty.make "main" "r.db").1.steps (mixedUses.map (Use.step "main"))).1
    ∃ text, ∃ families : List (Family Reading), after.step (.exposition "main") = (after, .text text) ∧
      Exposition.read? text = some families ∧ ⟨"counter", "usub_a", .whole 0⟩ ∈ families ∧
      ⟨"counter", "usub_b", .whole 5⟩ ∈ families ∧ ⟨"gauge", "usub_a", .whole (-7)⟩ ∈ families ∧
      after.step (.getMetric "main" "a") = (after, .document (.int (-7))) ∧
      after.step (.getMetric "main" "b") = (after, .document (.int 5)) := by
  intro after
  obtain ⟨counters, gauges, hc, hg, hshows, hget⟩ :=
    uses_read_back (collects_make empty "main" "r.db") (by decide : ∀ use ∈ mixedUses, use.Legible)
  have hlimit : 7 < Decimal.tenTo Decimal.digitLimit :=
    (by decide : 7 < Decimal.tenTo 1).trans (Decimal.tenTo_lt_tenTo.mpr (by decide))
  have hsum : ∀ name, (Use.additions mixedUses name).sum.natAbs ≤ 5 := by
    intro name
    by_cases ha : "a" = name
    · subst ha
      decide
    · by_cases hb : "b" = name
      · subst hb
        decide
      · simp [Use.additions, mixedUses, List.filterMap_cons, Use.added?, ha, hb]
  have hlast : ∀ name v, (Use.values mixedUses name).getLast? = some v → v.natAbs ≤ 7 := by
    intro name v hv
    have hset := Use.mem_of_last? hv
    simp only [mixedUses, List.mem_cons, List.not_mem_nil, or_false, reduceCtorEq, false_or,
      Use.set.injEq] at hset
    omega
  obtain ⟨text, htext, hread⟩ := hshows.text fun e he => by
    rcases List.mem_append.mp he with hm | hm
    · obtain ⟨name, -, -, hv⟩ := (hc e.1 e.2).mp hm
      have := hsum name
      omega
    · obtain ⟨name, -, hv⟩ := (hg e.1 e.2).mp hm
      have := hlast name e.2 hv
      omega
  have ha : ("usub_a", 0) ∈ counters := (hc _ _).mpr ⟨"a", rfl, by decide, rfl⟩
  have hb : ("usub_b", 5) ∈ counters := (hc _ _).mpr ⟨"b", rfl, by decide, rfl⟩
  have hgauge : ("usub_a", -7) ∈ gauges := (hg _ _).mpr ⟨"a", rfl, rfl⟩
  refine ⟨text, _, htext, hread, ?_, ?_, ?_, hget "a", hget "b"⟩
  · exact List.mem_append_left _ (List.mem_append_left _ (List.mem_map.mpr ⟨_, ha, rfl⟩))
  · exact List.mem_append_left _ (List.mem_append_left _ (List.mem_map.mpr ⟨_, hb, rfl⟩))
  · exact List.mem_append_left _ (List.mem_append_right _ (List.mem_map.mpr ⟨_, hgauge, rfl⟩))

def twice (n : Int) : List Use := [.inc "publish_denied_total" n, .inc "publish_denied_total" n]

/-- Two additions come to the least number that has too many digits. -/
theorem uses_without_text :
    let half : Int := 5 * Decimal.tenTo 4299
    let after := ((empty.make "main" "r.db").1.steps ((twice half).map (Use.step "main"))).1
    (Use.additions (twice half) "publish_denied_total").sum = Decimal.tenTo 4300 ∧
      ∀ text, (after.step (.exposition "main")).2 ≠ .text text := by
  intro half after
  have hsum : (Use.additions (twice half) "publish_denied_total").sum = Decimal.tenTo 4300 := by
    have hten : Decimal.tenTo 4300 = 10 * Decimal.tenTo 4299 := Decimal.tenTo_succ 4299
    have hadditions : ∀ n, Use.additions (twice n) "publish_denied_total" = [n, n] := fun n => rfl
    rw [hadditions, hten]
    simp only [List.sum_cons, List.sum_nil, half]
    omega
  have hu : ∀ use ∈ twice half, use.Legible := by
    have hword : (Use.inc "publish_denied_total" half).Legible :=
      (by decide : IsWord "publish_denied_total".toList)
    exact List.forall_mem_cons.mpr ⟨hword, List.forall_mem_singleton.mpr hword⟩
  refine ⟨hsum, fun text => ?_⟩
  rw [noText_of_sum (collects_make empty "main" "r.db") hu]
  · nofun
  · have hlimit : Decimal.digitLimit = 4300 := rfl
    rw [hsum, Int.natAbs_natCast, hlimit]

end Session

end PubSub
