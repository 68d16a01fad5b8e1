import Mathlib.Tactic.IntervalCases
import PubSub.Proofs.SignificantDigits
import PubSub.Proofs.Gauges
import PubSub.Proofs.Openings
import PubSub.Proofs.Written

/-!
# Reports

What one reads in a report of the counts. In two of its formats every count is written out. In the third
it has six significant digits, and what one reads is the count exactly if it needs no more
(`stats_report_counts`).
-/

namespace PubSub

/-! ## Written counts -/

namespace Json

open Decimal (digit digits isDigit)

theorem wholePart_digits (n : Nat) {c : Char} (hc : isDigit c = false) (rest : List Char) :
    wholePart (digits n ++ c :: rest) = (digits n, c :: rest) := by
  obtain ⟨k, ds, hk, hds, hzero⟩ := Decimal.digits_head n
  by_cases hk₀ : k = 0
  · obtain rfl := hzero hk₀
    have hone : digits 0 = ['0'] := by rw [digits]; rfl
    rw [hone]
    rfl
  · have hall := Decimal.isDigit_of_mem_digits n
    have hsplit : wholePart (digits n ++ c :: rest) = ((digits n ++ c :: rest).takeWhile isDigit,
        (digits n ++ c :: rest).dropWhile isDigit) := by
      rw [hds]
      interval_cases k
      · contradiction
      all_goals rfl
    rw [hsplit, List.takeWhile_append_of_pos hall, List.dropWhile_append_of_pos hall]
    simp [hc]

theorem readValue_digits (fuel level n : Nat) {c : Char} (hc : c = ',' ∨ c = '\n')
    (rest : List Char) :
    readValue .none (fuel + 1) level (digits n ++ c :: rest) = .ok (.int n, c :: rest) := by
  have hnumber : readNumber .none false (digits n ++ c :: rest) = .ok (.int n, c :: rest) := by
    have hne : digits n ≠ [] := List.ne_nil_of_length_pos (Decimal.length_digits_pos n)
    unfold readNumber
    rw [wholePart_digits n (by rcases hc with rfl | rfl <;> rfl)]
    rcases hc with rfl | rfl <;>
    simp [hne, fractionPart, powerPart, exceeds, Limits.none, Decimal.ofDigits_digits]
  rw [← hnumber]
  obtain ⟨k, ds, hk, hds, -⟩ := Decimal.digits_head n
  rw [hds, List.cons_append]
  interval_cases k <;> rfl

def counted (c : String × Nat) : List Char := quoted c.1 ++ ':' :: ' ' :: digits c.2

theorem joined_cons (separator item : List Char) (items : List (List Char)) :
    joined separator (item :: items) = item ++ items.flatMap (separator ++ ·) := by
  induction items generalizing item with
  | nil => simp [joined]
  | cons next items ih => simp only [joined, ih, List.flatMap_cons, List.append_assoc]

theorem readEntries_entry (fuel level : Nat) (before : List (Document × Document)) (c : String × Nat)
    {d : Char} (hd : d = ',' ∨ d = '\n') (rest : List Char) :
    readEntries .none (fuel + 2) level before (counted c ++ d :: rest) =
      match skipBlanks (d :: rest) with
      | '}' :: rest => .ok (putEntry (.text c.1) (.int c.2) before, rest)
      | ',' :: rest =>
        readEntries .none (fuel + 1) level (putEntry (.text c.1) (.int c.2) before) (skipBlanks rest)
      | _ => .error .malformed := by
  have hname := readQuoted_quoted c.1 (':' :: ' ' :: (digits c.2 ++ d :: rest))
  have hdoc : Document.ofPoints (Text.points c.1) = .text c.1 := by
    simp [Document.ofPoints, Text.string?_points]
  have hcolon := skipBlanks_cons (c := ':') (by decide) (' ' :: (digits c.2 ++ d :: rest))
  have hblank : skipBlanks (' ' :: (digits c.2 ++ d :: rest)) = digits c.2 ++ d :: rest := by
    obtain ⟨k, ds, hk, hds, -⟩ := Decimal.digits_head c.2
    have hdigit : isBlank (digit k) = false := by interval_cases k <;> rfl
    rw [hds]
    exact skipBlanks_cons hdigit _
  have hvalue := readValue_digits fuel level c.2 hd rest
  rw [counted, quoted_eq]
  conv_lhs => unfold readEntries
  simp only [List.cons_append, List.append_assoc, hname, ofOption, bind, Except.bind, hcolon, hblank,
    hvalue, hdoc]
  rfl

/-- By induction on the counts: each step reads one of them and what stands before the next one. -/
theorem readEntries_counted (level : Nat) (rest : List Char) (c : String × Nat)
    (counts : List (String × Nat)) (before : List (Document × Document)) {fuel : Nat}
    (hf : counts.length + 2 ≤ fuel) :
    readEntries .none fuel level before (counted c ++
        ((counts.flatMap fun c => ',' :: '\n' :: ' ' :: ' ' :: counted c) ++ '\n' :: '}' :: rest)) =
      .ok ((c :: counts).foldl (fun entries c => putEntry (.text c.1) (.int c.2) entries) before,
        rest) := by
  induction counts generalizing c before fuel with
  | nil =>
    obtain ⟨fuel, rfl⟩ : ∃ k, fuel = k + 2 := ⟨fuel - 2, by simp at hf; omega⟩
    rw [List.flatMap_nil, List.nil_append, readEntries_entry fuel level before c (.inr rfl)]
    rfl
  | cons next counts ih =>
    obtain ⟨fuel, rfl⟩ : ∃ k, fuel = k + 2 := ⟨fuel - 2, by simp at hf; omega⟩
    rw [List.flatMap_cons]
    simp only [List.cons_append, List.append_assoc]
    rw [readEntries_entry fuel level before c (.inl rfl)]
    have hrest := ih next (putEntry (.text c.1) (.int c.2) before)
      (by simp at hf; omega : counts.length + 2 ≤ fuel + 1)
    have hcomma := skipBlanks_cons (c := ',') (by decide)
    have hblanks : ∀ cs, skipBlanks ('\n' :: ' ' :: ' ' :: (counted next ++ cs)) = counted next ++ cs :=
      fun cs => skipBlanks_cons (c := '"') (by decide) _
    simp only [hcomma, hblanks, hrest]
    rfl

end Json

/-! ## Lines of a report -/

namespace Report

/-- A line as a name and what stands after the separator. -/
def entry (separator : Char) (line : List Char) : List Char × List Char :=
  (line.takeWhile (· ≠ separator), (line.dropWhile (· ≠ separator)).tail.dropWhile (· = ' '))

def entries (separator : Char) (output : List Char) : List (List Char × List Char) :=
  (output.splitOn '\n').map (entry separator)

def number? (format : Format) (name output : String) : Option Decimal.Scientific :=
  match format with
  | .text => ((entries ':' output.toList).lookup name.toList).bind (Decimal.unsigned? false)
  | .prometheus =>
    ((entries ' ' output.toList).lookup (Metrics.fullName name).toList).bind (Decimal.unsigned? false)
  | .json =>
    match (Json.read? output).bind (Document.field? name) with
    | some (.int n) => some ⟨n < 0, n.natAbs, 0⟩
    | _ => none

theorem entry_line {separator : Char} {name : List Char} (hn : separator ∉ name) (rest : List Char) :
    entry separator (name ++ separator :: rest) = (name, rest.dropWhile (· = ' ')) := by
  have hall : ∀ c ∈ name, decide (c ≠ separator) = true := fun c hc => by
    simpa using fun h : c = separator => hn (h ▸ hc)
  unfold entry
  rw [List.takeWhile_append_of_pos hall, List.dropWhile_append_of_pos hall]
  simp

theorem dropWhile_figures {value : List Char} (hv : ∀ c ∈ value, Decimal.isFigure c = true) :
    value.dropWhile (· = ' ') = value := by
  cases value with
  | nil => rfl
  | cons c value =>
    have hc : c ≠ ' ' := by
      rintro rfl
      exact absurd (hv ' ' List.mem_cons_self) (by decide)
    simp [hc]

theorem newline_notMem {value : List Char} (hv : ∀ c ∈ value, Decimal.isFigure c = true) :
    '\n' ∉ value := fun h => absurd (hv _ h) (by decide)

theorem splitOn_lines {lines : List (List Char)} (hl : ∀ l ∈ lines, '\n' ∉ l) (rest : List Char) :
    (lines.flatMap (· ++ ['\n']) ++ rest).splitOn '\n' = lines ++ rest.splitOn '\n' := by
  induction lines with
  | nil => rfl
  | cons line lines ih =>
    obtain ⟨hline, hlines⟩ := List.forall_mem_cons.mp hl
    have hsplit : line ++ ['\n'] ++ lines.flatMap (· ++ ['\n']) ++ rest =
        line ++ '\n' :: (lines.flatMap (· ++ ['\n']) ++ rest) := by simp
    rw [List.flatMap_cons, hsplit, List.splitOn_append_cons_self_of_not_mem hline, ih hlines]
    rfl

theorem entries_lines {separator : Char} {lines : List (List Char)} (hl : ∀ l ∈ lines, '\n' ∉ l)
    (rest : List Char) : entries separator (lines.flatMap (· ++ ['\n']) ++ rest) =
      lines.map (entry separator) ++ entries separator rest := by
  rw [entries, splitOn_lines hl, List.map_append, ← entries]

theorem lookup_map {κ κ' α β : Type} [BEq κ] [LawfulBEq κ] [BEq κ'] [LawfulBEq κ'] {key : κ → κ'}
    (hk : Function.Injective key) (l : List (κ × α)) (f : α → β) (name : κ) :
    (l.map fun p => (key p.1, f p.2)).lookup (key name) = (l.lookup name).map f := by
  induction l with
  | nil => rfl
  | cons p l ih =>
    obtain ⟨k, a⟩ := p
    by_cases h : name = k
    · simp [h]
    · have : key name ≠ key k := fun he => h (hk he)
      simp [List.lookup_cons, beq_eq_false_iff_ne.mpr h, beq_eq_false_iff_ne.mpr this, ih]

theorem lookup_toList {α β : Type} (l : List (String × α)) (f : α → β) (name : String) :
    (l.map fun p => (p.1.toList, f p.2)).lookup name.toList = (l.lookup name).map f :=
  lookup_map (fun _ _ => String.toList_injective) l f name

/-! ## Counts in the order of a report -/

theorem lookup_inOrder (counts : List (String × Nat)) {name : String} (hn : name ∈ countNames) :
    (inOrder counts).lookup name = some ((counts.lookup name).getD 0) :=
  List.lookup_graph (fun name => (counts.lookup name).getD 0) hn

theorem mem_countNames {counts : List (String × Nat)} {c : String × Nat} (hc : c ∈ inOrder counts) :
    c.1 ∈ countNames := by
  obtain ⟨name, hn, rfl⟩ := List.mem_map.mp hc
  exact hn

theorem countNames_plain : ∀ name ∈ countNames, ':' ∉ name.toList ∧ '\n' ∉ name.toList := by decide

/-! ## Texts -/

def plainLine (c : String × Nat) : List Char := c.1.toList ++ ':' :: ' ' :: Decimal.sixDigits c.2

theorem toList_countsText (counts : List (String × Nat)) :
    (countsText counts).toList = ((inOrder counts).map plainLine).flatMap (· ++ ['\n']) := by
  simp only [countsText, String.toList_ofList, List.flatMap_map]
  exact List.flatMap_congr fun c _ => by simp [textLine, plainLine]

section
variable {c : String × Nat} (hc : c.1 ∈ countNames)

include hc

theorem newline_notMem_plainLine : '\n' ∉ plainLine c := by
  have hname := (countNames_plain c.1 hc).2
  have hvalue := newline_notMem (Decimal.isFigure_sixDigits c.2)
  simp [plainLine, hname, hvalue]

theorem entry_plainLine : entry ':' (plainLine c) = (c.1.toList, Decimal.sixDigits c.2) := by
  rw [plainLine, entry_line (countNames_plain c.1 hc).1]
  simp [dropWhile_figures (Decimal.isFigure_sixDigits c.2)]

end

theorem number?_text (counts : List (String × Nat)) {name : String} (hn : name ∈ countNames) :
    ∃ s, number? .text name (countsText counts) = some s ∧
      ∀ m, s.Is m ↔ m = Decimal.shown ((counts.lookup name).getD 0) := by
  obtain ⟨s, hs, his⟩ := Decimal.unsigned?_sixDigits ((counts.lookup name).getD 0)
  refine ⟨s, ?_, his⟩
  have hlines : ∀ l ∈ (inOrder counts).map plainLine, '\n' ∉ l := by
    intro l hl
    obtain ⟨c, hc, rfl⟩ := List.mem_map.mp hl
    exact newline_notMem_plainLine (mem_countNames hc)
  have hentries : ((inOrder counts).map plainLine).map (entry ':') =
      (inOrder counts).map fun c => (c.1.toList, Decimal.sixDigits c.2) := by
    rw [List.map_map]
    exact List.map_congr_left fun c hc => entry_plainLine (mem_countNames hc)
  have hfound := @entries_lines ':' _ hlines []
  rw [List.append_nil, ← toList_countsText, hentries] at hfound
  simp only [number?]
  rw [hfound, List.lookup_append, lookup_toList, lookup_inOrder counts hn]
  exact hs

/-! ## Documents -/

theorem toList_countsJson (counts : List (String × Nat)) {c : String × Nat}
    {more : List (String × Nat)} (h : inOrder counts = c :: more) :
    (countsJson counts).toList = '{' :: '\n' :: ' ' :: ' ' :: (Json.counted c ++
      ((more.flatMap fun c => ',' :: '\n' :: ' ' :: ' ' :: Json.counted c) ++
        '\n' :: '}' :: ['\n'])) := by
  have hline : jsonLine = fun c => ' ' :: ' ' :: Json.counted c := by
    funext c
    simp [jsonLine, Json.counted]
  rw [countsJson, h, List.map_cons, Json.joined_cons, hline, String.toList_ofList, List.flatMap_map]
  simp

theorem read?_countsJson (counts : List (String × Nat)) :
    Json.read? (countsJson counts) =
      some (.record ((inOrder counts).map fun c => (c.1, .int c.2))) := by
  obtain ⟨c, more, h⟩ : ∃ c more, inOrder counts = c :: more := ⟨_, _, rfl⟩
  have hlength : more.length = 4 := Nat.succ_inj.mp (congrArg List.length h).symm
  have htext := toList_countsJson counts h
  have hfuel : more.length + 2 ≤ 2 * (countsJson counts).toList.length + 1 := by
    rw [htext]
    simp only [hlength, List.length_cons]
    omega
  have hread := Json.readEntries_counted 1 ['\n'] c more [] hfuel
  obtain ⟨cs, hcs⟩ : ∃ cs, Json.counted c ++
      ((more.flatMap fun c => ',' :: '\n' :: ' ' :: ' ' :: Json.counted c) ++ '\n' :: '}' :: ['\n']) =
        '"' :: cs := ⟨_, rfl⟩
  rw [hcs] at htext hread
  have hvalue : Json.readValue .none (2 * (countsJson counts).toList.length + 2) 0
      (Json.skipBlanks (countsJson counts).toList) =
        (Json.readEntries .none (2 * (countsJson counts).toList.length + 1) 1 [] ('"' :: cs)).map
          fun p => (.map p.1, p.2) := by
    generalize 2 * (countsJson counts).toList.length = fuel
    rw [htext]
    rfl
  unfold Json.read? Json.read
  simp only [hvalue, hread]
  obtain ⟨rfl, rfl⟩ := List.cons.inj h
  rfl

theorem number?_json (counts : List (String × Nat)) {name : String} (hn : name ∈ countNames) :
    number? .json name (countsJson counts) = some ⟨false, (counts.lookup name).getD 0, 0⟩ := by
  have hfield : Document.field? name (.record ((inOrder counts).map fun c => (c.1, .int c.2))) =
      some (.int ((counts.lookup name).getD 0 : Nat)) := by
    simp only [countNames, List.mem_cons, List.not_mem_nil, or_false] at hn
    rcases hn with rfl | rfl | rfl | rfl | rfl <;> rfl
  simp [number?, read?_countsJson, hfield]

/-! ## Texts for a scraper -/

theorem lookup_of_nodup {α β : Type} [BEq α] [LawfulBEq α] {l : List (α × β)}
    (h : (l.map (·.1)).Nodup) {a : α} {b : β} (hm : (a, b) ∈ l) : l.lookup a = some b := by
  induction l with
  | nil => cases hm
  | cons p l ih =>
    obtain ⟨k, v⟩ := p
    obtain ⟨hk, hl⟩ := List.nodup_cons.mp h
    rcases List.mem_cons.mp hm with he | hrest
    · cases he
      simp
    · have hne : a ≠ k := by
        rintro rfl
        exact hk (List.mem_map.mpr ⟨_, hrest, rfl⟩)
      simp [List.lookup_cons, beq_eq_false_iff_ne.mpr hne, ih hl hrest]

theorem lookup_families {α : Type} (l : List (String × α)) (kind : String × α → List Char)
    (f : α → List Char) {name : String} (hn : name.toList ≠ ['#']) :
    (l.flatMap fun g => [(['#'], kind g), (g.1.toList, f g.2)]).lookup name.toList =
      (l.lookup name).map f := by
  rw [← lookup_toList]
  induction l with
  | nil => rfl
  | cons g l ih =>
    simp only [List.flatMap_cons, List.cons_append, List.nil_append, List.map_cons,
      List.lookup_cons, beq_eq_false_iff_ne.mpr hn, ih]

/-- A gauge that shows a count under a name without blanks. -/
def ShowsCount (g : String × Sample) : Prop :=
  ' ' ∉ g.1.toList ∧ '\n' ∉ g.1.toList ∧ ∃ n : Nat, g.2 = .whole n

def gaugeLines (g : String × Sample) : List (List Char) :=
  ["# TYPE ".toList ++ g.1.toList ++ " gauge".toList, g.1.toList ++ ' ' :: g.2.text.toList]

theorem text_whole (n : Nat) : (Sample.whole n).text.toList = Decimal.digits n := by
  have : ¬(n : Int) < 0 := by omega
  simp [Sample.text, Decimal.text, Decimal.signed, this]

theorem newline_notMem_gaugeLines {g : String × Sample} (h : ShowsCount g) :
    ∀ l ∈ gaugeLines g, '\n' ∉ l := by
  obtain ⟨-, hname, n, hn⟩ := h
  have hvalue := newline_notMem (Decimal.isFigure_digits n)
  simp [gaugeLines, hname, hn, text_whole, hvalue]

theorem entries_gaugeLines {g : String × Sample} (h : ShowsCount g) :
    (gaugeLines g).map (entry ' ') =
      [(['#'], "TYPE ".toList ++ g.1.toList ++ " gauge".toList), (g.1.toList, g.2.text.toList)] := by
  obtain ⟨hname, -, n, hn⟩ := h
  have hsample := entry_line hname g.2.text.toList
  rw [hn, text_whole, dropWhile_figures (Decimal.isFigure_digits n)] at hsample
  simp only [gaugeLines, hn, text_whole, List.map_cons, List.map_nil, hsample]
  rfl

section
variable {m : Metrics} (hm : m.counters = []) (now : Float)

include hm

theorem exposition_gauges : ∃ last, (m.exposition now).toList =
    ((m.gauges.mergeSort Metrics.byName).flatMap gaugeLines).flatMap (· ++ ['\n']) ++ last := by
  refine ⟨((Metrics.family "gauge" (Metrics.fullName "uptime_seconds")
    (Decimal.tenthsText (now - m.started))).map (· ++ "\n")).flatMap String.toList, ?_⟩
  simp only [Metrics.exposition, Metrics.lines, hm, List.mergeSort_nil, List.flatMap_nil,
    List.nil_append, List.map_append, String.toList_join, List.flatMap_append]
  congr 1
  simp [List.map_flatMap, Metrics.family, gaugeLines, List.flatMap_assoc]

/-- Under the name of a gauge one reads the count that it shows, in whatever order the gauges stand. -/
theorem number?_prometheus (hg : ∀ g ∈ m.gauges, ShowsCount g) (hd : (m.gauges.map (·.1)).Nodup)
    {name : String} {n : Nat} (hn : (Metrics.fullName name, .whole n) ∈ m.gauges) :
    number? .prometheus name (m.exposition now) = some ⟨false, n, 0⟩ := by
  have hperm := List.mergeSort_perm m.gauges Metrics.byName
  obtain ⟨last, hlast⟩ := exposition_gauges hm now
  have hshows : ∀ g ∈ m.gauges.mergeSort Metrics.byName, ShowsCount g := fun g hs =>
    hg g (hperm.mem_iff.mp hs)
  have hlines : ∀ l ∈ (m.gauges.mergeSort Metrics.byName).flatMap gaugeLines, '\n' ∉ l := by
    intro l hl
    obtain ⟨g, hs, hl⟩ := List.mem_flatMap.mp hl
    exact newline_notMem_gaugeLines (hshows g hs) l hl
  have hentries := List.flatMap_congr fun g hs => entries_gaugeLines (hshows g hs)
  have hfound : (m.gauges.mergeSort Metrics.byName).lookup (Metrics.fullName name) = some (.whole n) :=
    lookup_of_nodup ((hperm.map _).nodup_iff.mpr hd) (hperm.mem_iff.mpr hn)
  have hother : (Metrics.fullName name).toList ≠ ['#'] := by simp [Metrics.fullName]
  have hlookup := lookup_families (m.gauges.mergeSort Metrics.byName)
    (fun g => "TYPE ".toList ++ g.1.toList ++ " gauge".toList)
    (fun v : Sample => v.text.toList) hother
  rw [hfound, Option.map_some, text_whole] at hlookup
  simp only [number?]
  rw [hlast, entries_lines hlines, List.lookup_append, List.map_flatMap, hentries, hlookup]
  exact Decimal.unsigned?_digits false n

end

end Report

/-! ## The gauges of a command -/

theorem Database.counts_found {db : Database} {c : String × Nat} (hc : c ∈ db.counts) :
    c.1 ∈ Report.countNames ∧ (db.counts.lookup c.1).getD 0 = c.2 := by
  simp only [Database.counts, List.mem_cons, List.not_mem_nil, or_false] at hc
  rcases hc with rfl | rfl | rfl | rfl | rfl <;> exact ⟨by simp [Report.countNames], rfl⟩

theorem Metrics.startedAt_showing (time : Float) (db : Database) :
    ((startedAt time).showing db.counts).counters = [] ∧
      ((startedAt time).showing db.counts).gauges =
        db.counts.map fun c => (fullName c.1, .whole c.2) := by
  refine ⟨rfl, ?_⟩
  simp [showing, startedAt, Database.counts, set, setIn, fullName_injective]

theorem Report.number?_showing (time now : Float) {db : Database} {c : String × Nat}
    (hc : c ∈ db.counts) :
    number? .prometheus c.1 (((Metrics.startedAt time).showing db.counts).exposition now) =
      some ⟨false, c.2, 0⟩ := by
  obtain ⟨hcounters, hgauges⟩ := Metrics.startedAt_showing time db
  have hnames : ∀ name ∈ countNames,
      ' ' ∉ (Metrics.fullName name).toList ∧ '\n' ∉ (Metrics.fullName name).toList := by decide
  apply number?_prometheus hcounters now
  · rw [hgauges]
    intro g hg
    obtain ⟨c, hc, rfl⟩ := List.mem_map.mp hg
    obtain ⟨hblank, hline⟩ := hnames c.1 (Database.counts_found hc).1
    exact ⟨hblank, hline, c.2, rfl⟩
  · have hlist : (db.counts.map fun c => (Metrics.fullName c.1, Sample.whole c.2)).map (·.1) =
        ["usub_topics", "usub_subscribers", "usub_subscriptions_deprecated",
          "usub_subscriptions_pending", "usub_subscriptions_active"] := rfl
    rw [hgauges, hlist]
    decide
  · rw [hgauges]
    exact List.mem_map.mpr ⟨c, hc, rfl⟩

namespace World

section
variable {w : World} {i : Nat} {db : Database} {s : Store}

theorem number?_output (hi : w.Idle i) (hd : w.committed? i = some db)
    (hs : w.stores[i]? = some s) (hm : ∃ time, s.metrics = .startedAt time) {format : Format}
    {output : String} (ho : (w.output i (.stats format)).2 = .ok output) {c : String × Nat}
    (hc : c ∈ db.counts) : ∃ r, Report.number? format c.1 output = some r ∧
      ∀ m, r.Is m ↔ m = if format = .text then Decimal.shown c.2 else c.2 := by
  obtain ⟨time, hm⟩ := hm
  obtain ⟨hname, hcount⟩ := Database.counts_found hc
  cases hr : w.refresh i with
  | mk w' result =>
    cases result with
    | error failure => simp [World.output, hr, Except.map] at ho
    | ok counts =>
      obtain ⟨rfl, link, hs'⟩ := refresh_ok hi hd hs (congrArg Prod.snd hr)
      rw [hr] at hs'
      simp only [World.output, hr, Except.map, Except.ok.injEq] at ho
      subst ho
      cases format with
      | text =>
        obtain ⟨r, hr, his⟩ := Report.number?_text db.counts hname
        rw [hcount] at his
        exact ⟨r, hr, his⟩
      | json =>
        have hr := Report.number?_json db.counts hname
        rw [hcount] at hr
        exact ⟨_, hr, fun m => Decimal.Scientific.is_whole⟩
      | prometheus =>
        simp only [hs', Option.map_some, Option.getD_some, hm]
        exact ⟨_, Report.number?_showing time _ hc, fun m => Decimal.Scientific.is_whole⟩

theorem output_of_calm (hc : w.Calm i) (hd : w.committed? i = some db) (ht : db.hasAll = true)
    (format : Format) : ∃ output, (w.output i (.stats format)).2 = .ok output := by
  obtain ⟨counts, hcounts⟩ := refreshFrom_of_calm hc hd (gauges_return ht)
  have hr : (w.refresh i).2 = .ok counts := hcounts
  simp only [World.output, hr, Except.map]
  exact ⟨_, rfl⟩

end

/-! ## Reports of a command -/

/-- The world in which a command runs, and what came of the opening of its store. -/
def started (w : World) (path : List Text.Point) : World × Except Failure Unit :=
  (w.addStore path).1.openStore (w.addStore path).2

theorem administer_eq (w : World) (path : List Text.Point) (command : Command) :
    (w.administer path command).2 =
      match (w.started path).2 with
      | .error failure => .error failure
      | .ok () => ((w.started path).1.output w.stores.length command).2 := by
  unfold administer started
  simp only [addStore]
  split <;> simp [*]

section
variable {w : World} {path : List Text.Point} (ho : (w.started path).2 = .ok ())

include ho

theorem started_ok : ∃ s db, (w.started path).1.stores[w.stores.length]? = some s ∧
    s.metrics = .startedAt w.clock ∧ (w.started path).1.Idle w.stores.length ∧
    (w.started path).1.committed? w.stores.length = some db ∧
    ∀ place found, (w.started path).1.home? w.stores.length = some (.file place) →
      w.files.database place = .ok found → found.SameRows db := by
  have hs : (w.addStore path).1.stores[w.stores.length]? =
      some ⟨path, none, 0, false, .startedAt w.clock⟩ := by simp [addStore]
  obtain ⟨v, a, home, db, events, log, happ, hk, hp, hopened⟩ := openStore_ok hs rfl ho
  obtain ⟨-, _, hfound, -, -⟩ := prepare_ok hp
  have happroached := approached (w.addStore path).1 ⟨path, none, 0, false, .startedAt w.clock⟩
  rw [happ] at happroached
  obtain ⟨hat, hdb, hh, hd⟩ := handle_linked (happroached.stores ▸ hs) hk hfound db a log
  have hstarted : w.started path = _ := hopened
  rw [hstarted]
  refine ⟨_, db, hat, rfl, ⟨_, hh, rfl⟩, hd, fun place found hhome hold => ?_⟩
  obtain ⟨db', hdb', hrows⟩ :=
    sameRows_openStore hs rfl (show (w.addStore path).1.files.database place = .ok found from hold)
  have hplace : (v.keep home db).2 = .file place := by
    unfold home? at hhome
    simp only at hat hhome
    rw [hat] at hhome
    simpa [linked, Link.new] using hhome
  rw [hplace] at hdb
  rw [hopened] at hdb'
  exact (Except.ok.inj (hdb'.symm.trans hdb) ▸ hrows : found.SameRows db)

end

/-- Where a command finds all tables and nothing stands in its way, it reports in every format, and
every report, whatever was in the way of it, gives a number for each count of the rows that stand in
the database. It is the count, and in the format of plain lines it is the count exactly if that needs no
more than six significant digits. -/
theorem stats_report_counts {w : World} {path : List Text.Point}
    (ho : (w.started path).2 = .ok ()) :
    let v := (w.started path).1
    let i := w.stores.length
    ∃ db, v.committed? i = some db ∧
      (∀ place found, v.home? i = some (.file place) → w.files.database place = .ok found →
        found.counts = db.counts) ∧
      (v.Calm i → db.hasAll = true → ∀ format, ∃ output,
        (w.administer path (.stats format)).2 = .ok output) ∧
      ∀ format output, (w.administer path (.stats format)).2 = .ok output → ∀ c ∈ db.counts,
        ∃ r shown, Report.number? format c.1 output = some r ∧ (∀ m, r.Is m ↔ m = shown) ∧
          (shown = c.2 ↔ (format = .text → Decimal.IsShort c.2)) := by
  intro v i
  obtain ⟨s, db, hs, hm, hi, hd, hrows⟩ := started_ok ho
  refine ⟨db, hd, fun place found hhome hold => ?_, fun hc ht format => ?_,
    fun format output hout c hc => ?_⟩
  · obtain ⟨htopics, hmembers, hsubscriptions, -⟩ := hrows place found hhome hold
    simp only [Database.counts, Database.topicsIn, Database.rowsIn, htopics, hmembers, hsubscriptions]
  · rw [administer_eq, ho]
    exact output_of_calm hc hd ht format
  · rw [administer_eq, ho] at hout
    obtain ⟨r, hr, his⟩ := number?_output hi hd hs ⟨_, hm⟩ hout hc
    refine ⟨r, _, hr, his, ?_⟩
    split
    · rename_i hf
      simp [hf, Decimal.shown_eq_iff]
    · rename_i hf
      simp [hf]

/-- A database in a file, with these topics in it. -/
def holding (topics : List TopicRow) : World :=
  { empty with files := [([Text.toBytes "r.db"], .database { Database.fresh with topics := topics })] }

theorem started_holding (topics : List TopicRow) :
    let v := ((holding topics).started (Text.points "r.db")).1
    ((holding topics).started (Text.points "r.db")).2 = .ok () ∧ v.Calm 0 ∧
      v.committed? 0 = some { Database.fresh with topics := topics } := by
  intro v
  have hstores : v.stores = [⟨Text.points "r.db", some (.new (.file [Text.toBytes "r.db"])
    (.plain (Text.toBytes "r.db"))), 1, false, .startedAt 0⟩] := rfl
  have hfiles : v.files = (holding topics).files := rfl
  have hlocked : v.locked = [] := rfl
  refine ⟨rfl, ?_⟩
  -- What the connection sees depends on these three only.
  obtain ⟨files, commons, locked, stores, clock, log⟩ := v
  subst hstores hfiles hlocked
  exact ⟨⟨_, rfl, rfl, ⟨rfl, rfl, rfl, rfl, rfl⟩⟩, rfl⟩

theorem stats_report_counts_one :
    let w := holding [⟨"t", "p", "", 1⟩]
    ∃ output r, (w.administer (Text.points "r.db") (.stats .text)).2 = .ok output ∧
      Report.number? .text "topics" output = some r ∧ r.Is 1 := by
  intro w
  obtain ⟨ho, hc, hd⟩ := started_holding [⟨"t", "p", "", 1⟩]
  obtain ⟨db, hd', -, hreports, hread⟩ := stats_report_counts ho
  obtain rfl := Option.some.inj (hd.symm.trans hd')
  obtain ⟨output, hout⟩ := hreports hc rfl .text
  obtain ⟨r, shown, hr, his, hexact⟩ := hread .text output hout ("topics", 1) List.mem_cons_self
  have hshown : shown = 1 := hexact.mpr fun _ => Decimal.isShort_of_lt (by decide)
  exact ⟨output, r, hout, hr, (his 1).mpr hshown.symm⟩

theorem read_holding (topics : List TopicRow) : ∃ output r,
    ((holding topics).administer (Text.points "r.db") (.stats .text)).2 = .ok output ∧
      Report.number? .text "topics" output = some r ∧
      ∀ m, r.Is m ↔ m = Decimal.shown topics.length := by
  obtain ⟨ho, hc, hd⟩ := started_holding topics
  obtain ⟨s, db, hs, hm, hi, hd', -⟩ := started_ok ho
  obtain rfl := Option.some.inj (hd.symm.trans hd')
  have hreport := administer_eq (holding topics) (Text.points "r.db") (.stats .text)
  rw [ho] at hreport
  obtain ⟨output, hout⟩ := output_of_calm hc hd rfl .text
  obtain ⟨r, hr, his⟩ := number?_output hi hd hs ⟨_, hm⟩ hout
    (c := ("topics", topics.length)) List.mem_cons_self
  exact ⟨output, r, hreport.trans hout, hr, his⟩

/-- One topic more than a million. -/
def crowd : List TopicRow := (List.range 1000001).map fun (n : Nat) => ⟨Decimal.text n, "p", "", 1⟩

theorem stats_hide_one_topic :
    crowd.length = 1000001 ∧ ∃ output r,
      ((holding crowd).administer (Text.points "r.db") (.stats .text)).2 = .ok output ∧
        Report.number? .text "topics" output = some r ∧ ¬r.Is 1000001 := by
  have hlength : crowd.length = 1000001 := by rw [crowd, List.length_map, List.length_range]
  obtain ⟨output, r, hout, hr, his⟩ := read_holding crowd
  rw [hlength] at his
  refine ⟨hlength, output, r, hout, hr, fun hexact => ?_⟩
  exact Decimal.not_isShort_succ_million (Decimal.shown_eq_iff.mp ((his _).mp hexact).symm)

end World

end PubSub
