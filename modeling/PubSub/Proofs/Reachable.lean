import PubSub.Proofs.Operations
import PubSub.Proofs.Runs
import PubSub.Proofs.Stops
import PubSub.Proofs.Writes

/-!
# Reachable databases

What calls and blocks can make of a new database, whatever is refused on the way. A
database is reached by calls that each come to one of their stops.
-/

namespace PubSub

/-- The details of a new membership are texts that were written out. -/
def Write.Regular : Write → Prop
  | .addMember new => ∃ texts, new.details = Details.encodeTexts texts
  | _ => True

theorem Call.regular (call : Call) : call.operation.Only Write.Regular := by
  refine Script.Only.mono (fun w hw => ?_) call.issues
  cases w with
  | addMember new =>
    have hinserts : ∀ {topic subscriber}, Write.Inserts topic subscriber (.addMember new) →
        Write.Regular (.addMember new) := fun h => h.2.2
    cases call with
    | addSubscriber => exact hinserts hw
    | applyConfirmation => exact hinserts ((hw.resolve_left nofun).2.resolve_left nofun)
    | handleResponse =>
      obtain ⟨topic, hw⟩ := hw
      exact hinserts ((hw.resolve_left nofun).2.resolve_left nofun)
    | heal => exact hinserts (hw.resolve_left nofun)
    | _ => simp [Call.Issues] at hw
  | _ => trivial

/-! ## Reached databases -/

inductive Database.Reached : Database → Prop where
  | fresh : Reached .fresh
  | call {db db' : Database} (h : Reached db) (call : Call) (hr : call.operation.refusal = none)
    (hs : call.operation.body.Stops db db') : Reached db'

namespace Database

/-- Every topic has one record at the most. -/
def Keyed (db : Database) : Prop := (db.subscriptions.map (·.topic)).Nodup

theorem keyed_run {w : Write} {db db' : Database} {rows : Nat}
    (hrun : w.run db = .ok (rows, db')) (h : db.Keyed) : db'.Keyed := by
  have hsub : ∀ p : SubscriptionRow → Bool,
      ((db.subscriptions.filter p).map (·.topic)).Nodup := fun p =>
    h.sublist (List.filter_sublist.map _)
  cases w with
  | addMember new =>
    obtain ⟨-, hs, -⟩ := addMember_frame hrun
    unfold Keyed
    rwa [hs]
  | putSubscription topic state requestId =>
    cases hrun
    exact nodup_putSubscription h _
  | setState topic state =>
    cases hrun
    exact (congrArg List.Nodup (topics_setState db topic state)).mpr h
  | dropSubscription topic =>
    cases hrun
    exact hsub _
  | dropInState state =>
    cases hrun
    exact hsub _
  | _ =>
    cases hrun
    exact h

/-- The details of every membership are texts that were written out. -/
def Readable (db : Database) : Prop :=
  ∀ row ∈ db.members, ∃ texts, row.details = Details.encodeTexts texts

theorem readable_run {w : Write} {db db' : Database} {rows : Nat} (hw : w.Regular)
    (hrun : w.run db = .ok (rows, db')) (h : db.Readable) : db'.Readable := by
  cases w with
  | addMember new =>
    intro row hr
    rcases addMember_members hrun with ⟨added, -, -, hdet, -, -, -, hm⟩ | ⟨-, hm⟩
    · rw [hm] at hr
      rcases List.mem_append.mp hr with hold | hlast
      · exact h row hold
      · rw [List.mem_singleton.mp hlast, hdet]
        exact hw
    · rw [hm] at hr
      exact h row hr
  | dropMember topic subscriber =>
    cases hrun
    exact fun row hr => h row (List.mem_filter.mp hr).1
  | dropMembers topic =>
    cases hrun
    exact fun row hr => h row (List.mem_filter.mp hr).1
  | _ =>
    cases hrun
    exact h

namespace Reached

theorem keeps {I : Database → Prop} (h0 : I .fresh)
    (hI : ∀ w : Write, w.Regular → ∀ db rows db', I db → w.run db = .ok (rows, db') → I db')
    {db : Database} (h : db.Reached) : I db := by
  induction h with
  | fresh => exact h0
  | call h call hr hs ih => exact (Call.regular call).stops hI hs ih

section
variable {db db' : Database} (h : db.Reached)

include h

theorem wellFormed : db.WellFormed :=
  h.keeps wellFormed_fresh fun _ _ _ _ _ hdb hrun => wellFormed_run hrun hdb

theorem keyed : db.Keyed :=
  h.keeps List.nodup_nil fun _ _ _ _ _ hdb hrun => keyed_run hrun hdb

theorem readable : db.Readable :=
  h.keeps (fun _ hr => by cases hr) fun _ hw _ _ _ hdb hrun => readable_run hw hrun hdb

theorem returns {call : Call} {reply : Reply} (hr : call.operation.Returns db reply db') :
    db'.Reached := by
  obtain ⟨hn, last, hb, -⟩ := Operation.returns_iff.mp hr
  have hs := call.operation.body.stops_eval db
  rw [hb] at hs
  exact h.call call hn hs

theorem outcome {call : Call} {result : Except Failure Reply}
    (ho : Call.Outcome db call result db') : db'.Reached := by
  cases ho with
  | fails failure => exact h
  | returns hr => exact h.returns hr

end

end Reached

end Database

theorem Course.reached {past : List Moment} {db : Database} (h : Course past db) : db.Reached := by
  induction h with
  | start => exact .fresh
  | next h step ih => exact ih.outcome step

theorem Call.keeps_reached (call : Call) : call.operation.Keeps Database.Reached :=
  fun hr _ _ h hs => h.call call hr hs

theorem World.reached_follow {w : World} {G : Nat → Prop} {body : Body}
    (h : w.Holds Database.Reached G) (hG : w.Secluded G) :
    (w.follow body).world.Holds Database.Reached G ∧
      ∀ w' ∈ (w.follow body).worlds, w'.Holds Database.Reached G :=
  h.follow hG Call.keeps_reached

end PubSub
