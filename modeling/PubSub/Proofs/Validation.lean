import Mathlib
import PubSub.Settings

/-!
# Validation

What the check of a settings document lets through and what it reports. A check
is described by its issues: each section and each field adds those of its own
place, so the issues of a whole document are put together from them. What is
accepted depends on the known fields only, and the level on its letters only;
its values are those of the fields, or their defaults (`ReadFrom`).
-/

namespace PubSub

/-! ## Numbers above zero -/

theorem not_isNaN_of_lt {x y : Float.Model.UnpackedFloat} (less : x.lt y = true) :
    y.isNaN = false := by
  cases y with
  | notANumber => cases x <;> cases less
  | infinity | zero | finite => rfl

theorem not_isNaN_of_pos {x : Float} (positive : 0 < x) : x.isNaN = false :=
  not_isNaN_of_lt (of_decide_eq_true (show decide ((0 : Float).toModel < x.toModel) = true
    from positive))

namespace Text

/-! ## Letters -/

theorem lowerCode_ascii {c : Char} (ascii : c.toNat < 128) :
    lowerCode c.toNat = c.toLower.toNat := by
  rw [lowerCode, if_pos ascii, Char.ofNat_toNat]

theorem lowerFrom_ascii (before : List Nat) {cs : List Char} (ascii : ∀ c ∈ cs, c.toNat < 128) :
    lowerFrom before (cs.map Char.toNat) = cs.map fun c => c.toLower.toNat := by
  induction cs generalizing before with
  | nil => rfl
  | cons c cs ih =>
    have bound := ascii c (.head _)
    have noSigma : c.toNat ≠ capitalSigma := by unfold capitalSigma; omega
    have noDot : c.toNat ≠ dottedCapital := by unfold dottedCapital; omega
    rw [List.map_cons, lowerFrom, if_neg noSigma, if_neg noDot, lowerCode_ascii bound,
      ih _ fun c' mem => ascii c' (.tail _ mem)]
    rfl

/-- A text without accents and the like in lower case, letter by letter. -/
theorem lower_ascii {s : String} (ascii : ∀ c ∈ s.toList, c.toNat < 128) :
    lower (points s) = (s.toList.map Char.toLower).map .char := by
  have codes : (points s).map Point.code = s.toList.map Char.toNat := by
    rw [points, List.map_map]
    rfl
  rw [lower, codes, lowerFrom_ascii [] ascii, List.map_map, List.map_map]
  exact List.map_congr_left fun c _ => Point.ofCode_code (.char c.toLower)

end Text

namespace Document

/-! ## Looking fields up -/

def textKey? : Document → Option String
  | .text name => some name
  | _ => none

def names (entries : List (Document × Document)) : List String :=
  entries.filterMap fun entry => entry.1.textKey?

variable {name : String}

theorem fieldOf?_cons (key value : Document) (rest : List (Document × Document)) :
    fieldOf? name ((key, value) :: rest) =
      (fieldOf? name rest).or (if key.textKey? = some name then some value else none) := by
  cases found : fieldOf? name rest with
  | some later => simp [fieldOf?, found]
  | none => cases key <;> simp [fieldOf?, found, textKey?]

theorem fieldOf?_append (first second : List (Document × Document)) :
    fieldOf? name (first ++ second) = (fieldOf? name second).or (fieldOf? name first) := by
  induction first with
  | nil => exact Option.or_none.symm
  | cons entry first ih =>
    obtain ⟨key, value⟩ := entry
    rw [List.cons_append, fieldOf?_cons, fieldOf?_cons, ih, Option.or_assoc]

theorem fieldOf?_perm {entries entries' : List (Document × Document)}
    (order : entries.Perm entries') (distinct : (names entries).Nodup) :
    fieldOf? name entries = fieldOf? name entries' := by
  induction order with
  | nil => rfl
  | cons entry _ ih =>
    have tail : (names _).Nodup :=
      distinct.sublist ((List.sublist_cons_self entry _).filterMap _)
    rw [fieldOf?_cons, fieldOf?_cons, ih tail]
  | swap first second rest =>
    obtain ⟨key, value⟩ := first
    obtain ⟨key', value'⟩ := second
    have apart : ¬(key.textKey? = some name ∧ key'.textKey? = some name) := by
      rintro ⟨same, same'⟩
      simp [names, same, same'] at distinct
    simp only [fieldOf?_cons, Option.or_assoc]
    congr 1
    by_cases same : key.textKey? = some name <;> by_cases same' : key'.textKey? = some name
    · exact absurd ⟨same, same'⟩ apart
    all_goals simp [same, same']
  | trans order _ ih ih' =>
    exact (ih distinct).trans (ih' ((order.filterMap _).nodup_iff.1 distinct))

end Document

namespace Checked

/-! ## Issues -/

variable {α β : Type} {P Q : Issue → Prop}

/-- All issues with a property are reported, at most one from a place, and nothing is accepted that
has one. -/
def Reports (P : Issue → Prop) : Checked α → Prop
  | .ok _ => ∀ issue, ¬P issue
  | .error issues =>
    issues ≠ [] ∧ (issues.map Issue.location).Nodup ∧ ∀ issue, issue ∈ issues ↔ P issue

theorem Reports.congr {c : Checked α} (reports : c.Reports P) (same : ∀ issue, P issue ↔ Q issue) :
    c.Reports Q := by
  rwa [← funext fun issue => propext (same issue)]

theorem Reports.both {first : Checked α} {second : Checked β} (here : first.Reports P)
    (there : second.Reports Q) (apart : ∀ i j, P i → Q j → i.location ≠ j.location) :
    (first.both second).Reports fun issue => P issue ∨ Q issue := by
  match first, second with
  | .ok _, .ok _ => exact fun issue wrong => wrong.elim (here issue) (there issue)
  | .ok _, .error issues =>
    exact ⟨there.1, there.2.1, fun issue => by simp [there.2.2 issue, here issue]⟩
  | .error issues, .ok _ =>
    exact ⟨here.1, here.2.1, fun issue => by simp [here.2.2 issue, there issue]⟩
  | .error issues, .error issues' =>
    refine ⟨fun none => here.1 (List.append_eq_nil_iff.1 none).1, ?_, fun issue => ?_⟩
    · rw [List.map_append]
      refine List.nodup_append.2 ⟨here.2.1, there.2.1, fun _ mem _ mem' => ?_⟩
      obtain ⟨i, hi, rfl⟩ := List.mem_map.1 mem
      obtain ⟨j, hj, rfl⟩ := List.mem_map.1 mem'
      exact apart i j ((here.2.2 i).1 hi) ((there.2.2 j).1 hj)
    · rw [List.mem_append, here.2.2, there.2.2]

theorem Reports.map {c : Checked α} (reports : c.Reports P) (f : α → β) :
    Reports P (Except.map f c) := by
  cases c <;> exact reports

theorem toOption_both (first : Checked α) (second : Checked β) :
    (first.both second).toOption =
      first.toOption.bind fun a => second.toOption.map fun b => (a, b) := by
  cases first <;> cases second <;> rfl

theorem both_eq_ok {first : Checked α} {second : Checked β} {a : α} {b : β} :
    first.both second = .ok (a, b) ↔ first = .ok a ∧ second = .ok b := by
  cases first <;> cases second <;> simp [both]

end Checked

namespace Settings

section
variable {α : Type} {d part : Document} {location : List String} {name : String} {default : α}
  {check : Document → Except Defect α} {read : Document → Checked α} {P : Issue → Prop}

/-! ## Faults by place -/

theorem reports_field :
    (field part location name default check).Reports fun issue =>
      ∃ value defect, part.field? name = some value ∧ check value = .error defect ∧
        issue = ⟨location ++ [name], defect⟩ := by
  unfold field
  cases part.field? name with
  | none => simp [Checked.Reports]
  | some value =>
    cases refused : check value with
    | ok a => simp [checked, Checked.Reports, refused]
    | error defect => simp [checked, Checked.Reports, refused]

theorem reports_ofRecord (reports : (read d).Reports P) :
    (ofRecord d location read).Reports fun issue =>
      (isRecord d = true ∧ P issue) ∨ (isRecord d = false ∧ issue = ⟨location, .notRecord⟩) := by
  unfold ofRecord
  cases isRecord d with
  | true => exact reports.congr fun issue => by simp
  | false => simp [Checked.Reports]

end

theorem isRecord_of_field? {d value : Document} {name : String}
    (given : d.field? name = some value) : isRecord d = true := by
  cases d <;> first | rfl | cases given

/-- What the field of a section does not take, and why. -/
@[mk_iff]
inductive Refuses : (part name : String) → Document → Defect → Prop
  | path {value : Document} {defect : Defect} (h : textOf value = .error defect) :
    Refuses "store" "db_path" value defect
  | timeout {value : Document} {defect : Defect} (h : timeoutOf value = .error defect) :
    Refuses "store" "busy_timeout_seconds" value defect
  | level {value : Document} {defect : Defect} (h : levelOf value = .error defect) :
    Refuses "logging" "level" value defect
  | format {value : Document} {defect : Defect} (h : formatOf value = .error defect) :
    Refuses "logging" "format" value defect

/-- The faults of a section, if it is given. -/
inductive WrongIn (d : Document) (name : String) : Issue → Prop
  | shape {part : Document} (given : d.field? name = some part) (h : isRecord part = false) :
    WrongIn d name ⟨[name], .notRecord⟩
  | value {name' : String} {part value : Document} {defect : Defect}
    (given : d.field? name = some part) (given' : part.field? name' = some value)
    (refused : Refuses name name' value defect) : WrongIn d name ⟨[name, name'], defect⟩

/-- The faults of a document. The fault at a place is one of what stands there, whatever stands
elsewhere. -/
inductive Wrong (d : Document) : Issue → Prop
  | shape (h : isRecord d = false) : Wrong d ⟨[], .notRecord⟩
  | inside {name : String} {issue : Issue} (known : name ∈ ["store", "logging"])
    (wrong : WrongIn d name issue) : Wrong d issue

theorem WrongIn.location {d : Document} {name : String} {issue : Issue}
    (wrong : WrongIn d name issue) : issue.location.head? = some name := by
  cases wrong <;> rfl

theorem reports_fields {α β : Type} {part : Document} {name first second : String} {a : α} {b : β}
    {check : Document → Except Defect α} {check' : Document → Except Defect β}
    (apart : first ≠ second) (fields : ∀ name' value defect, Refuses name name' value defect ↔
      (name' = first ∧ check value = .error defect) ∨
        (name' = second ∧ check' value = .error defect)) :
    ((field part [name] first a check).both (field part [name] second b check')).Reports
      fun issue => ∃ name' value defect, part.field? name' = some value ∧
        Refuses name name' value defect ∧ issue = ⟨[name, name'], defect⟩ := by
  refine (reports_field.both reports_field ?_).congr fun issue => ⟨?_, ?_⟩
  · rintro _ _ ⟨value, defect, -, -, rfl⟩ ⟨value', defect', -, -, rfl⟩
    simpa using apart
  · rintro (⟨value, defect, given, fault, rfl⟩ | ⟨value, defect, given, fault, rfl⟩)
    · exact ⟨_, value, defect, given, (fields ..).2 (.inl ⟨rfl, fault⟩), rfl⟩
    · exact ⟨_, value, defect, given, (fields ..).2 (.inr ⟨rfl, fault⟩), rfl⟩
  · rintro ⟨name', value, defect, given, refused, rfl⟩
    obtain ⟨rfl, fault⟩ | ⟨rfl, fault⟩ := (fields ..).1 refused
    · exact .inl ⟨value, defect, given, fault, rfl⟩
    · exact .inr ⟨value, defect, given, fault, rfl⟩

theorem reports_storeSection (part : Document) :
    (storeSection part).Reports fun issue => ∃ name value defect,
      part.field? name = some value ∧ Refuses "store" name value defect ∧
        issue = ⟨["store", name], defect⟩ :=
  reports_fields (by decide) fun name value defect => by simp [refuses_iff, and_comm]

theorem reports_logSection (part : Document) :
    (logSection part).Reports fun issue => ∃ name value defect,
      part.field? name = some value ∧ Refuses "logging" name value defect ∧
        issue = ⟨["logging", name], defect⟩ :=
  reports_fields (by decide) fun name value defect => by simp [refuses_iff, and_comm]

theorem reports_inSection {α : Type} {d : Document} {name : String}
    {read : Document → Checked α} (reports : ∀ part, (read part).Reports fun issue =>
      ∃ name' value defect, part.field? name' = some value ∧ Refuses name name' value defect ∧
        issue = ⟨[name, name'], defect⟩) :
    (inSection d name read).Reports (WrongIn d name) := by
  refine (reports_ofRecord (reports _)).congr fun issue => ⟨?_, fun wrong => ?_⟩
  · cases given : d.field? name with
    | none => simp [isRecord, Document.field?, Document.fieldOf?]
    | some part =>
      rintro (⟨-, name', value, defect, given', refused, rfl⟩ | ⟨shape, rfl⟩)
      · exact .value given given' refused
      · exact .shape given shape
  · cases wrong with
    | shape given h => exact .inr ⟨by rwa [given], rfl⟩
    | value given given' refused =>
      rw [given]
      exact .inl ⟨isRecord_of_field? given', _, _, _, given', refused, rfl⟩

theorem wrong_iff {d : Document} {issue : Issue} :
    Wrong d issue ↔ (isRecord d = true ∧ (WrongIn d "store" issue ∨ WrongIn d "logging" issue)) ∨
      (isRecord d = false ∧ issue = ⟨[], .notRecord⟩) := by
  constructor
  · rintro (shape | ⟨known, wrong⟩)
    · exact .inr ⟨shape, rfl⟩
    · have record : isRecord d = true := by cases wrong <;> exact isRecord_of_field? ‹_›
      refine .inl ⟨record, ?_⟩
      rcases List.mem_cons.1 known with rfl | known
      · exact .inl wrong
      · exact .inr (List.mem_singleton.1 known ▸ wrong)
  · rintro (⟨-, wrong | wrong⟩ | ⟨shape, rfl⟩)
    · exact .inside (by simp) wrong
    · exact .inside (by simp) wrong
    · exact .shape shape

theorem reports_ofDocument (d : Document) : (ofDocument d).Reports (Wrong d) := by
  have apart : ∀ i j, WrongIn d "store" i → WrongIn d "logging" j → i.location ≠ j.location := by
    intro i j wrong wrong' same
    have names := wrong.location.symm.trans (same ▸ wrong'.location)
    exact absurd names (by decide)
  have inside : (sections d).Reports fun issue =>
      WrongIn d "store" issue ∨ WrongIn d "logging" issue :=
    (reports_inSection reports_storeSection).both (reports_inSection reports_logSection) apart
  exact ((reports_ofRecord inside).map _).congr fun issue => wrong_iff.symm

end Settings

namespace Document

/-! ## Documents with the same settings -/

/-- A change of a document that leaves its known fields as they are: another order, one unknown
entry more, or a change of the value of one entry that its name allows. -/
inductive Edit (known : List String) (Inner : String → Document → Document → Prop) :
    Document → Document → Prop
  | reorder {entries entries' : List (Document × Document)} (distinct : (names entries).Nodup)
    (order : entries.Perm entries') : Edit known Inner (.map entries) (.map entries')
  | unknown {key : Document} (before after : List (Document × Document)) (value : Document)
    (h : ∀ name ∈ known, key.textKey? ≠ some name) :
    Edit known Inner (.map (before ++ after)) (.map (before ++ (key, value) :: after))
  | inner {name : String} {value value' : Document} (before after : List (Document × Document))
    (h : Inner name value value') :
    Edit known Inner (.map (before ++ (.text name, value) :: after))
      (.map (before ++ (.text name, value') :: after))

inductive Changed (Inner : String → Document → Document → Prop) (name : String) :
    Option Document → Option Document → Prop
  | same (found : Option Document) : Changed Inner name found found
  | inner {value value' : Document} (h : Inner name value value') :
    Changed Inner name (some value) (some value')

theorem Edit.changed {known : List String} {Inner : String → Document → Document → Prop}
    {d d' : Document} (edit : Edit known Inner d d') {name : String} (mem : name ∈ known) :
    Changed Inner name (d.field? name) (d'.field? name) := by
  cases edit with
  | reorder distinct order =>
    rw [field?, field?, fieldOf?_perm order distinct]
    exact .same _
  | unknown before after value h =>
    rw [field?, field?, fieldOf?_append, fieldOf?_append, fieldOf?_cons, if_neg (h name mem),
      Option.or_none]
    exact .same _
  | @inner name' value value' before after h =>
    rw [field?, field?, fieldOf?_append, fieldOf?_append, fieldOf?_cons, fieldOf?_cons]
    cases fieldOf? name after with
    | some later => exact .same _
    | none =>
      by_cases same : textKey? (.text name') = some name
      · obtain rfl : name' = name := Option.some.inj same
        rw [if_pos same, if_pos same]
        exact .inner h
      · rw [if_neg same, if_neg same]
        exact .same _

end Document

namespace Settings

open Document (Edit)

/-- Two texts of letters that differ in their case only. -/
structure Recased (value value' : Document) : Prop where
  letters : ∃ s s' : String, textOf value = .ok (Text.points s) ∧
    textOf value' = .ok (Text.points s') ∧ (∀ c ∈ s.toList ++ s'.toList, c.toNat < 128) ∧
    s.toList.map Char.toLower = s'.toList.map Char.toLower

@[mk_iff]
inductive SectionEdit : String → Document → Document → Prop
  | store {part part' : Document}
    (h : Edit ["db_path", "busy_timeout_seconds"] (fun _ _ _ => False) part part') :
    SectionEdit "store" part part'
  | logging {part part' : Document}
    (h : Edit ["level", "format"] (fun name value value' => name = "level" ∧ Recased value value')
      part part') : SectionEdit "logging" part part'

abbrev DocumentEdit : Document → Document → Prop := Edit ["store", "logging"] SectionEdit

theorem levelOf_toOption {value : Document} {s : String}
    (given : textOf value = .ok (Text.points s)) (ascii : ∀ c ∈ s.toList, c.toNat < 128) :
    (levelOf value).toOption = Level.ofName? (String.ofList (s.toList.map Char.toLower)) := by
  have small : Text.string? (Text.lower (Text.points s)) =
      some (String.ofList (s.toList.map Char.toLower)) := by
    rw [Text.lower_ascii ascii, Text.string?, Text.mapM_char?_map]
    rfl
  simp only [levelOf, given, bind, Except.bind, small, Option.bind_some]
  cases Level.ofName? (String.ofList (s.toList.map Char.toLower)) <;> rfl

theorem Recased.levelOf {value value' : Document} (recased : Recased value value') :
    (levelOf value).toOption = (Settings.levelOf value').toOption := by
  obtain ⟨s, s', given, given', ascii, same⟩ := recased.letters
  rw [levelOf_toOption given fun c mem => ascii c (List.mem_append_left _ mem),
    levelOf_toOption given' fun c mem => ascii c (List.mem_append_right _ mem), same]

section
variable {α : Type} {d d' part part' : Document} {location : List String} {name : String}
  {Inner : String → Document → Document → Prop}

theorem field_toOption_eq {default : α} {check : Document → Except Defect α}
    (changed : Document.Changed Inner name (part.field? name) (part'.field? name))
    (keeps : ∀ value value', Inner name value value' →
      (check value).toOption = (check value').toOption) :
    (field part location name default check).toOption =
      (field part' location name default check).toOption := by
  have read : ∀ part : Document, (field part location name default check).toOption =
      (part.field? name).elim (some default) fun value => (check value).toOption := by
    intro part
    unfold field
    cases part.field? name with
    | none => rfl
    | some value => cases h : check value <;> simp [checked, h, Except.toOption]
  rw [read, read]
  generalize part.field? name = found at changed
  generalize part'.field? name = found' at changed
  cases changed with
  | same => rfl
  | inner h => exact keeps _ _ h

theorem isRecord_of_edit {known : List String} (edit : Edit known Inner part part') :
    isRecord part = true ∧ isRecord part' = true := by
  cases edit <;> exact ⟨rfl, rfl⟩

theorem ofRecord_toOption_eq {known : List String} {read : Document → Checked α}
    (edit : Edit known Inner part part') (same : (read part).toOption = (read part').toOption) :
    (ofRecord part location read).toOption = (ofRecord part' location read).toOption := by
  obtain ⟨record, record'⟩ := isRecord_of_edit edit
  rw [ofRecord, ofRecord, if_pos record, if_pos record', same]

theorem inSection_toOption_eq {read : Document → Checked α}
    (changed : Document.Changed SectionEdit name (d.field? name) (d'.field? name))
    (keeps : ∀ part part', SectionEdit name part part' →
      (ofRecord part [name] read).toOption = (ofRecord part' [name] read).toOption) :
    (inSection d name read).toOption = (inSection d' name read).toOption := by
  unfold inSection
  generalize d.field? name = found at changed
  generalize d'.field? name = found' at changed
  cases changed with
  | same => rfl
  | inner h => exact keeps _ _ h

end

theorem storeSection_toOption_eq {part part' : Document} (edit : SectionEdit "store" part part') :
    (ofRecord part ["store"] storeSection).toOption =
      (ofRecord part' ["store"] storeSection).toOption := by
  obtain ⟨edit, -⟩ | ⟨-, no⟩ := (sectionEdit_iff ..).1 edit
  swap
  · simp at no
  refine ofRecord_toOption_eq edit ?_
  rw [storeSection, storeSection, Checked.toOption_both, Checked.toOption_both,
    field_toOption_eq (edit.changed (by simp)) fun _ _ none => none.elim,
    field_toOption_eq (edit.changed (by simp)) fun _ _ none => none.elim]

theorem logSection_toOption_eq {part part' : Document} (edit : SectionEdit "logging" part part') :
    (ofRecord part ["logging"] logSection).toOption =
      (ofRecord part' ["logging"] logSection).toOption := by
  obtain ⟨-, no⟩ | ⟨edit, -⟩ := (sectionEdit_iff ..).1 edit
  · simp at no
  refine ofRecord_toOption_eq edit ?_
  rw [logSection, logSection, Checked.toOption_both, Checked.toOption_both,
    field_toOption_eq (edit.changed (by simp)) fun _ _ h => h.2.levelOf,
    field_toOption_eq (edit.changed (by simp)) fun _ _ h => absurd h.1 (by decide)]

theorem toOption_map {α β : Type} (c : Checked α) (f : α → β) :
    (Except.map f c).toOption = c.toOption.map f := by
  cases c <;> rfl

theorem ofDocument_edit {d d' : Document} (edit : DocumentEdit d d') :
    (ofDocument d).toOption = (ofDocument d').toOption := by
  rw [ofDocument, ofDocument, toOption_map, toOption_map]
  refine congrArg _ (ofRecord_toOption_eq edit ?_)
  rw [sections, sections, Checked.toOption_both, Checked.toOption_both,
    inSection_toOption_eq (edit.changed (by simp)) fun _ _ => storeSection_toOption_eq,
    inSection_toOption_eq (edit.changed (by simp)) fun _ _ => logSection_toOption_eq]

/-- Neither the order of entries nor unknown ones nor the letter case of the level count. -/
theorem ofDocument_edits {d d' : Document} (edits : Relation.EqvGen DocumentEdit d d') :
    (ofDocument d').toOption = (ofDocument d).toOption := by
  induction edits with
  | rel _ _ edit => exact (ofDocument_edit edit).symm
  | refl => rfl
  | symm _ _ _ ih => exact ih.symm
  | trans _ _ _ _ _ ih ih' => exact ih'.trans ih

/-! ## Accepted settings -/

structure Proper (s : Settings) : Prop where
  positive : 0 < s.busyTimeout
  number : s.busyTimeout.isNaN = false
  level : s.level.name ∈ ["critical", "error", "warning", "info", "debug", "notset"]
  format : s.format.name ∈ ["json", "text"]

theorem timeoutOf_pos {value : Document} {x : Float} (h : timeoutOf value = .ok x) : 0 < x := by
  rw [timeoutOf] at h
  cases read : floatOf value with
  | error defect => simp [read, bind, Except.bind] at h
  | ok y =>
    rw [read] at h
    by_cases positive : 0 < y
    · simp [bind, Except.bind, positive, pure, Except.pure] at h
      exact h ▸ positive
    · simp [bind, Except.bind, positive, throw, throwThe, MonadExceptOf.throw] at h

theorem ofRecord_ok {α : Type} {d : Document} {location : List String} {read : Document → Checked α}
    {a : α} (h : ofRecord d location read = .ok a) : read d = .ok a := by
  unfold ofRecord at h
  split at h
  · exact h
  · cases h

/-- The value of a field of a section: what its check reads there, or the default where nothing is
given. -/
def Gives {α : Type} (d : Document) (part name : String) (default : α)
    (check : Document → Except Defect α) (a : α) : Prop :=
  match (d.field? part).bind (·.field? name) with
  | some value => check value = .ok a
  | none => a = default

theorem gives_of_field {α : Type} {d : Document} {part name : String} {location : List String}
    {default a : α} {check : Document → Except Defect α}
    (h : field ((d.field? part).getD (.map [])) location name default check = .ok a) :
    Gives d part name default check a := by
  have found : ((d.field? part).getD (.map [])).field? name =
      (d.field? part).bind (·.field? name) := by
    cases d.field? part <;> rfl
  unfold field at h
  unfold Gives
  rw [found] at h
  cases given : (d.field? part).bind (·.field? name) with
  | none => simpa [given] using h.symm
  | some value =>
    rw [given] at h
    cases read : check value with
    | error defect => simp [checked, read] at h
    | ok b => simpa [checked, read] using h

structure ReadFrom (s : Settings) (d : Document) : Prop where
  path : Gives d "store" "db_path" (Text.points defaultPath) textOf s.path
  busyTimeout : Gives d "store" "busy_timeout_seconds" 5 timeoutOf s.busyTimeout
  level : Gives d "logging" "level" .info levelOf s.level
  format : Gives d "logging" "format" .json formatOf s.format

theorem readFrom_of_ofDocument {d : Document} {s : Settings} (accepted : ofDocument d = .ok s) :
    s.ReadFrom d := by
  obtain ⟨⟨⟨path, busyTimeout⟩, level, format⟩, whole, rfl⟩ :
      ∃ parts, ofRecord d [] sections = .ok parts ∧
        (⟨parts.1.1, parts.1.2, parts.2.1, parts.2.2⟩ : Settings) = s := by
    unfold ofDocument at accepted
    cases whole : ofRecord d [] sections with
    | error issues => simp [whole, Except.map] at accepted
    | ok parts => exact ⟨parts, rfl, by simpa [whole, Except.map] using accepted⟩
  have parts := Checked.both_eq_ok.1 (ofRecord_ok whole)
  have store := Checked.both_eq_ok.1 (ofRecord_ok parts.1)
  have logging := Checked.both_eq_ok.1 (ofRecord_ok parts.2)
  exact ⟨gives_of_field store.1, gives_of_field store.2, gives_of_field logging.1,
    gives_of_field logging.2⟩

theorem ReadFrom.busyTimeout_pos {d : Document} {s : Settings} (reads : s.ReadFrom d) :
    0 < s.busyTimeout := by
  have timeout := reads.busyTimeout
  unfold Gives at timeout
  split at timeout
  · exact timeoutOf_pos timeout
  · rw [timeout]
    decide

theorem proper_of_ofDocument {d : Document} {s : Settings} (accepted : ofDocument d = .ok s) :
    s.Proper where
  positive := (readFrom_of_ofDocument accepted).busyTimeout_pos
  number := not_isNaN_of_pos (readFrom_of_ofDocument accepted).busyTimeout_pos
  level := by cases s.level <;> decide
  format := by cases s.format <;> decide

theorem ofDocument_document {s : Settings} (positive : 0 < s.busyTimeout) :
    ofDocument s.document = .ok s := by
  have path : textOf (.ofPoints s.path) = .ok s.path := by
    unfold Document.ofPoints
    cases found : Text.string? s.path with
    | none => rfl
    | some text => exact congrArg _ (Text.points_of_string? found)
  have timeout : timeoutOf (.float s.busyTimeout) = .ok s.busyTimeout := if_pos positive
  have level : levelOf (.text s.level.name) = .ok s.level := by cases s.level <;> rfl
  have format : formatOf (.text s.format.name) = .ok s.format := by cases s.format <;> rfl
  simp [ofDocument, document, ofRecord, isRecord, sections, inSection, Document.record,
    Document.field?, Document.fieldOf?, storeSection, logSection, field, checked, Checked.both,
    path, timeout, level, format, Except.map]

def Holds (files : Files) (path text : String) : Prop :=
  ∃ place node, files.reach (Text.points (Path.shown path)) = .ok place ∧
    files.node? place = some node ∧ node.text? = some text

theorem load_of_holds {files : Files} {path text : String} (holds : Holds files path text) :
    load files path = ofText text := by
  obtain ⟨place, node, reached, found, given⟩ := holds
  unfold load
  simp only [reached, found]
  cases node with
  | folder => cases given
  | plain _ | database _ => simp only [given]

theorem ofText_of_blank {text : String} {d : Document} {s : Settings}
    (read : Yaml.read depth text = .ok d) (blank : d.isBlank = true)
    (accepted : ofDocument (.map []) = .ok s) : ofText text = .ok s := by
  have empty : d.orEmpty = .map [] := if_pos blank
  simp only [ofText, read, empty, accepted]

/-- Accepted settings are proper, have the values that the document gives, and stay as they are when
written back and read again; only the known fields decide on them, whatever the order and the letter
case of the level; of a document that is rejected every fault is reported, one for each place; and a
file with a blank document has the settings of the empty mapping. -/
theorem settings_of_document (d : Document) :
    (∀ s, ofDocument d = .ok s → s.Proper ∧ s.ReadFrom d ∧ ofDocument s.document = .ok s) ∧
    (∀ d', Relation.EqvGen DocumentEdit d d' →
      (ofDocument d').toOption = (ofDocument d).toOption) ∧
    (ofDocument d).Reports (Wrong d) ∧
    ∀ files path text, Holds files path text → Yaml.read depth text = .ok d → d.isBlank = true →
      ∃ s, load files path = .ok s ∧ ofDocument (.map []) = .ok s := by
  refine ⟨fun s accepted => ?_, fun d' => ofDocument_edits, reports_ofDocument d, ?_⟩
  · have proper := proper_of_ofDocument accepted
    exact ⟨proper, readFrom_of_ofDocument accepted, ofDocument_document proper.positive⟩
  · intro files path text holds read blank
    have accepted : ofDocument (.map []) = .ok ⟨Text.points defaultPath, 5, .info, .json⟩ := rfl
    exact ⟨_, (load_of_holds holds).trans (ofText_of_blank read blank accepted), accepted⟩

/-- The same settings in two documents, and an empty file. -/
theorem settings_of_document_loud :
    let level (name : String) : Document := .record [("level", .text name)]
    let loud : Document := .record [("logging", level "WARNING"), ("extra", .null)]
    let quiet : Document := .record [("extra", .null), ("logging", level "warning")]
    (∃ s, ofDocument loud = .ok s ∧ s.Proper ∧ ofDocument s.document = .ok s ∧
      ofDocument quiet = .ok s) ∧
    ∃ s, load [([Text.toBytes "c"], .plain "")] "c" = .ok s ∧ ofDocument (.map []) = .ok s := by
  intro level loud quiet
  have ascii : ("WARNING".toList ++ "warning".toList).all (·.toNat < 128) = true := by decide
  have recased : Recased (.text "WARNING") (.text "warning") :=
    ⟨"WARNING", "warning", rfl, rfl, by simpa only [List.all_eq_true, decide_eq_true_eq] using ascii,
      by decide⟩
  have inside : SectionEdit "logging" (level "WARNING") (level "warning") :=
    .logging (.inner [] [] ⟨rfl, recased⟩)
  have quieter : DocumentEdit loud (.record [("logging", level "warning"), ("extra", .null)]) :=
    .inner [] [(.text "extra", .null)] inside
  have turned : DocumentEdit (.record [("logging", level "warning"), ("extra", .null)]) quiet :=
    .reorder (by decide) (.swap ..)
  have edits : Relation.EqvGen DocumentEdit loud quiet :=
    .trans _ _ _ (.rel _ _ quieter) (.rel _ _ turned)
  have accepted : ofDocument loud = .ok ⟨Text.points defaultPath, 5, .warning, .json⟩ := rfl
  have whole := settings_of_document loud
  have same := whole.2.1 quiet edits
  refine ⟨⟨_, accepted, (whole.1 _ accepted).1, (whole.1 _ accepted).2.2, ?_⟩, ?_⟩
  · rw [accepted] at same
    cases read : ofDocument quiet with
    | error issues => simp [read, Except.toOption] at same
    | ok s => simpa [read, Except.toOption] using same
  · have plain : Path.shown "c" = "c" := by cbv
    have holds : Holds [([Text.toBytes "c"], .plain "")] "c" "" :=
      ⟨[Text.toBytes "c"], .plain "", by rw [plain]; rfl, rfl, rfl⟩
    exact (settings_of_document .null).2.2.2 _ _ _ holds rfl rfl

end Settings
end PubSub
