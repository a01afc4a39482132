/-
**Generations as locks.**

Two overwrites within one microsecond have one generation, and a client that read the first cannot tell
that it lost to the second. If the clock moves on between the writes of an object, generations are
never used twice.

* `generation_taken` — what a call does to the generation of an object.
* `written_since` — a generation that is there was made by a write, and nothing changed the object since.
* `FreshReadings` — the writes of an object have different readings of the clock.
* `generations_compare_and_swap` — with fresh readings a generation is a lock.
* `generation_reused` — two clients replace one generation.
-/

import CloudTwin.Gcs.Service

namespace CloudTwin.Gcs

open Lib

set_option linter.unusedSectionVars false

section External

variable [External]

/-! ### What a call does -/

/-- The call is a write of the object, and succeeds. -/
def Writes (event : GcsEvent) (bucket name : String) : Prop :=
  (∃ content contentType props want,
    event.input.call = .uploadObject bucket name content contentType props want) ∧
  ∃ response, event.output = .ok response

/-- The call is a delete of the object, and succeeds. -/
def Deletes (event : GcsEvent) (bucket name : String) : Prop :=
  (∃ want, event.input.call = .deleteObject bucket name want) ∧
  ∃ response, event.output = .ok response

def Changes (event : GcsEvent) (bucket name : String) : Prop :=
  Writes event bucket name ∨ Deletes event bucket name

theorem generationOf_putRow (store : GcsStore) (object : GcsObject) (bucket name : String) :
    generationOf (putRow store object) bucket name =
      if bucket = object.bucket ∧ name = object.name then some object.generation
      else generationOf store bucket name := by
  unfold generationOf
  rw [loadObject_putRow]
  split
  · rfl
  · rfl

theorem generationOf_dropRow (store : GcsStore) (bucket name other otherName : String) :
    generationOf (dropRow store bucket name) other otherName =
      if other = bucket ∧ otherName = name then none else generationOf store other otherName := by
  unfold generationOf
  rw [loadObject_dropRow]
  split
  · rfl
  · rfl

/-- **What a call does to the generation of an object**: a write takes the clock's, a delete has none,
and any other call leaves it. -/
theorem generation_taken {event : GcsEvent} (taken : event.Taken perform) (bucket name : String) :
    (Writes event bucket name ∧
      generationOf event.after bucket name = some (nowTs event.input.now)) ∨
    (Deletes event bucket name ∧ generationOf event.after bucket name = none) ∨
    (¬ Changes event bucket name ∧
      generationOf event.after bucket name = generationOf event.before bucket name) := by
  rcases taken_commit taken with ⟨error, failed, same⟩ | ⟨response, output, done⟩
  · refine Or.inr (Or.inr ⟨?_, by rw [same]⟩)
    rintro (⟨_, _, answered⟩ | ⟨_, _, answered⟩)
    all_goals
      rw [failed] at answered
      cases answered
  have still : (∀ content contentType props want,
        event.input.call ≠ .uploadObject bucket name content contentType props want) →
      (∀ want, event.input.call ≠ .deleteObject bucket name want) → ¬ Changes event bucket name := by
    rintro noWrite noDelete (⟨⟨_, _, _, _, call⟩, _⟩ | ⟨⟨_, call⟩, _⟩)
    · exact noWrite _ _ _ _ call
    · exact noDelete _ call
  unfold transaction at done
  cases call : event.input.call with
  | createBucket _ _ =>
    rw [call] at done
    obtain ⟨result, created, done⟩ := bind_ok done
    obtain ⟨_, _, created⟩ := bind_ok created
    cases created
    obtain ⟨_, after⟩ := Prod.mk.inj (Except.ok.inj done)
    exact Or.inr (Or.inr ⟨still (by simp [call]) (by simp [call]), by rw [← after]; rfl⟩)
  | getBucket _ =>
    rw [call] at done
    obtain ⟨_, _, done⟩ := bind_ok done
    obtain ⟨_, after⟩ := Prod.mk.inj (Except.ok.inj done)
    exact Or.inr (Or.inr ⟨still (by simp [call]) (by simp [call]), by rw [← after]⟩)
  | deleteBucket _ =>
    rw [call] at done
    obtain ⟨after, deleted, done⟩ := bind_ok done
    obtain ⟨_, _, deleted⟩ := bind_ok deleted
    obtain ⟨_, _, deleted⟩ := bind_ok deleted
    cases deleted
    obtain ⟨_, after⟩ := Prod.mk.inj (Except.ok.inj done)
    exact Or.inr (Or.inr ⟨still (by simp [call]) (by simp [call]), by rw [← after]; rfl⟩)
  | uploadObject other otherName content contentType props want =>
    rw [call] at done
    obtain ⟨result, uploaded, done⟩ := bind_ok done
    obtain ⟨_, _, rfl⟩ := uploadObject_ok.mp uploaded
    obtain ⟨_, after⟩ := Prod.mk.inj (Except.ok.inj done)
    rw [← after, generationOf_putRow]
    by_cases own : bucket = other ∧ name = otherName
    · obtain ⟨rfl, rfl⟩ := own
      exact Or.inl ⟨⟨⟨_, _, _, _, call⟩, _, output⟩, if_pos ⟨rfl, rfl⟩⟩
    · refine Or.inr (Or.inr ⟨still (fun _ _ _ _ same => ?_) (by simp [call]), if_neg own⟩)
      rw [call] at same
      injection same with inBucket named
      exact own ⟨inBucket.symm, named.symm⟩
  | getObject _ _ =>
    rw [call] at done
    obtain ⟨_, _, done⟩ := bind_ok done
    obtain ⟨_, after⟩ := Prod.mk.inj (Except.ok.inj done)
    exact Or.inr (Or.inr ⟨still (by simp [call]) (by simp [call]), by rw [← after]⟩)
  | patchObject other otherName patch =>
    rw [call] at done
    obtain ⟨⟨object, after⟩, patched, done⟩ := bind_ok done
    obtain ⟨_, stored, loaded, rfl, rfl, generation, rfl⟩ := patchObject_ok patched
    obtain ⟨_, after⟩ := Prod.mk.inj (Except.ok.inj done)
    refine Or.inr (Or.inr ⟨still (by simp [call]) (by simp [call]), ?_⟩)
    rw [← after, generationOf_putRow]
    split
    · rename_i own
      rw [generationOf, own.1, own.2, loaded, generation]
      rfl
    · rfl
  | deleteObject other otherName want =>
    rw [call] at done
    obtain ⟨stored, deleted, done⟩ := bind_ok done
    obtain ⟨_, _, _, _, rfl⟩ := deleteObject_ok.mp deleted
    obtain ⟨_, after⟩ := Prod.mk.inj (Except.ok.inj done)
    rw [← after, generationOf_dropRow]
    by_cases own : bucket = other ∧ name = otherName
    · obtain ⟨rfl, rfl⟩ := own
      exact Or.inr (Or.inl ⟨⟨⟨_, call⟩, _, output⟩, if_pos ⟨rfl, rfl⟩⟩)
    · refine Or.inr (Or.inr ⟨still (by simp [call]) (fun _ same => ?_), if_neg own⟩)
      rw [call] at same
      injection same with inBucket named
      exact own ⟨inBucket.symm, named.symm⟩

/-- What is deleted was there. -/
theorem deletes_present {event : GcsEvent} (taken : event.Taken perform) {bucket name : String}
    (deletes : Deletes event bucket name) : generationOf event.before bucket name ≠ none := by
  obtain ⟨⟨want, call⟩, response, output⟩ := deletes
  have done := taken_ok taken output
  rw [transaction, call] at done
  obtain ⟨_, deleted, _⟩ := bind_ok done
  obtain ⟨_, stored, loaded, _⟩ := deleteObject_ok.mp deleted
  rw [generationOf, loaded]
  exact Option.some_ne_none _

/-! ### Where a generation comes from -/

/-- **A generation that is there was made by a write**, and no call has changed the object since. -/
theorem written_since {project : String} {history : List GcsEvent} {store : GcsStore}
    (run : GcsRun project history store) {bucket name : String} {generation : Int} :
    generationOf store bucket name = some generation →
    ∃ past write rest, history = past ++ write :: rest ∧ Writes write bucket name ∧
      nowTs write.input.now = generation ∧ ∀ later ∈ rest, ¬ Changes later bucket name := by
  induction run with
  | start => exact nofun
  | @next history event _ taken ih =>
    intro there
    rcases generation_taken taken bucket name with ⟨writes, made⟩ | ⟨_, none⟩ | ⟨unchanged, same⟩
    · rw [made] at there
      exact ⟨history, event, [], rfl, writes, Option.some.inj there, fun _ => nofun⟩
    · rw [none] at there
      cases there
    · rw [same] at there
      obtain ⟨past, write, rest, rfl, writes, read, since⟩ := ih there
      refine ⟨past, write, rest ++ [event], by simp, writes, read, fun later member => ?_⟩
      rcases List.mem_append.mp member with old | new
      · exact since later old
      · rw [List.mem_singleton.mp new]
        exact unchanged

/-- What no call changes stays. -/
theorem generation_kept {history : List GcsEvent} {start stop : GcsStore} {bucket name : String}
    (run : Run perform start history stop) :
    (∀ event ∈ history, ¬ Changes event bucket name) →
    generationOf stop bucket name = generationOf start bucket name := by
  induction run with
  | start => exact fun _ => rfl
  | @next history event _ taken ih =>
    intro unchanged
    rw [← ih fun earlier member => unchanged earlier (List.mem_append_left _ member)]
    have last := unchanged event (by simp)
    rcases generation_taken taken bucket name with ⟨writes, _⟩ | ⟨deletes, _⟩ | ⟨_, same⟩
    · exact absurd (Or.inl writes) last
    · exact absurd (Or.inr deletes) last
    · exact same

/-- An object that is there stays until it is deleted. -/
theorem present_kept {history : List GcsEvent} {start stop : GcsStore} {bucket name : String}
    (run : Run perform start history stop) :
    (∀ event ∈ history, ¬ Deletes event bucket name) → generationOf start bucket name ≠ none →
    generationOf stop bucket name ≠ none := by
  induction run with
  | start => exact fun _ there => there
  | @next history event _ taken ih =>
    intro kept there
    have before := ih (fun earlier member => kept earlier (List.mem_append_left _ member)) there
    rcases generation_taken taken bucket name with ⟨_, made⟩ | ⟨deletes, _⟩ | ⟨_, same⟩
    · rw [made]
      exact Option.some_ne_none _
    · exact absurd deletes (kept event (by simp))
    · rwa [same]

/-- The bucket of an object that is there is there. -/
def Housed (store : GcsStore) : Prop :=
  ∀ object ∈ store.objects, bucketExists store object.bucket = true

theorem bucketExists_iff {store : GcsStore} {name : String} :
    bucketExists store name = true ↔ ∃ bucket ∈ store.buckets, bucket.name = name := by
  unfold bucketExists
  rw [List.any_eq_true]
  exact exists_congr fun bucket => and_congr_right fun _ => beq_iff_eq

theorem housed_putRow {store : GcsStore} {object : GcsObject} (housed : Housed store)
    (there : bucketExists store object.bucket = true) : Housed (putRow store object) := by
  intro other member
  rcases List.mem_append.mp member with old | new
  · exact housed other (List.mem_filter.mp old).1
  · rw [List.mem_singleton.mp new]
    exact there

theorem housed_taken {event : GcsEvent} (taken : event.Taken perform)
    (housed : Housed event.before) : Housed event.after := by
  rcases taken_commit taken with ⟨_, _, same⟩ | ⟨_, _, done⟩
  · rw [same]
    exact housed
  unfold transaction at done
  split at done
  · obtain ⟨result, created, done⟩ := bind_ok done
    obtain ⟨_, _, created⟩ := bind_ok created
    cases created
    obtain ⟨_, after⟩ := Prod.mk.inj (Except.ok.inj done)
    rw [← after]
    intro object member
    obtain ⟨found, stored, named⟩ := bucketExists_iff.mp (housed object member)
    exact bucketExists_iff.mpr ⟨found, List.mem_append_left _ stored, named⟩
  · obtain ⟨_, _, done⟩ := bind_ok done
    obtain ⟨_, after⟩ := Prod.mk.inj (Except.ok.inj done)
    rw [← after]
    exact housed
  · rename_i name _
    obtain ⟨after, deleted, done⟩ := bind_ok done
    obtain ⟨_, _, deleted⟩ := bind_ok deleted
    obtain ⟨_, empty, deleted⟩ := bind_ok deleted
    cases deleted
    obtain ⟨_, after⟩ := Prod.mk.inj (Except.ok.inj done)
    rw [← after]
    intro object member
    have elsewhere : object.bucket ≠ name := fun here =>
      rejectIf_ok.mp empty (List.any_eq_true.mpr ⟨object, member, beq_iff_eq.mpr here⟩)
    obtain ⟨found, stored, named⟩ := bucketExists_iff.mp (housed object member)
    exact bucketExists_iff.mpr ⟨found, List.mem_filter.mpr ⟨stored, bne_iff_ne.mpr
      (named ▸ elsewhere)⟩, named⟩
  · obtain ⟨result, uploaded, done⟩ := bind_ok done
    obtain ⟨there, _, rfl⟩ := uploadObject_ok.mp uploaded
    obtain ⟨_, after⟩ := Prod.mk.inj (Except.ok.inj done)
    rw [← after]
    exact housed_putRow housed there
  · obtain ⟨_, _, done⟩ := bind_ok done
    obtain ⟨_, after⟩ := Prod.mk.inj (Except.ok.inj done)
    rw [← after]
    exact housed
  · obtain ⟨⟨object, after⟩, patched, done⟩ := bind_ok done
    obtain ⟨there, _, _, rfl, _, _, rfl⟩ := patchObject_ok patched
    obtain ⟨_, after⟩ := Prod.mk.inj (Except.ok.inj done)
    rw [← after]
    exact housed_putRow housed there
  · obtain ⟨stored, deleted, done⟩ := bind_ok done
    obtain ⟨_, _, _, _, rfl⟩ := deleteObject_ok.mp deleted
    obtain ⟨_, after⟩ := Prod.mk.inj (Except.ok.inj done)
    rw [← after]
    exact fun object member => housed object (List.mem_filter.mp member).1

/-! ### Calls that ask for a generation -/

/-- The call writes or deletes the object if it has the generation. -/
def Asks (event : GcsEvent) (bucket name : String) (generation : Int) : Prop :=
  (∃ content contentType props,
    event.input.call = .uploadObject bucket name content contentType props (some generation)) ∨
  event.input.call = .deleteObject bucket name (some generation)

def Succeeds (event : GcsEvent) : Prop :=
  ∃ response, event.output = .ok response

/-- **A call that asks for a generation succeeds** if the object has it; if it succeeds, the object has
it, or the call creates the object. -/
theorem asks_taken {event : GcsEvent} (taken : event.Taken perform) (housed : Housed event.before)
    {bucket name : String} {generation : Int} (asks : Asks event bucket name generation) :
    (generationOf event.before bucket name = some generation → Succeeds event) ∧
    (Succeeds event → generationOf event.before bucket name = some generation ∨
      (generation = 0 ∧ generationOf event.before bucket name = none)) ∧
    (Succeeds event → Changes event bucket name) := by
  have there : ∀ object, loadObject event.before bucket name = some object →
      bucketExists event.before bucket = true := fun object loaded => by
    obtain ⟨member, rfl, _⟩ := loadObject_isAt loaded
    exact housed object member
  rcases asks with ⟨content, contentType, props, call⟩ | call
  · refine ⟨fun has => ?_, ?_, fun succeeds => Or.inl ⟨⟨_, _, _, _, call⟩, succeeds⟩⟩
    · obtain ⟨object, loaded, found⟩ := Option.map_eq_some_iff.mp has
      have checked : checkGeneration (loadObject event.before bucket name) (some generation) name =
          .ok () := by
        refine checkGeneration_ok.mpr fun wanted same => ?_
        cases same
        exact Or.inr has
      have uploads : ∀ result, uploadObject event.before bucket name content contentType props
          (some generation) event.input.now = .ok result ↔ _ := fun _ => uploadObject_ok
      obtain ⟨⟨response, after⟩, done⟩ :
          ∃ result, transaction event.before event.input = .ok result := by
        rw [transaction, call]
        exact ⟨_, ok_bind ((uploads _).mpr ⟨there object loaded, checked, rfl⟩) rfl⟩
      rw [Event.Taken, perform, commit_ok done] at taken
      exact ⟨_, (congrArg Prod.fst taken).symm⟩
    · rintro ⟨response, output⟩
      have done := taken_ok taken output
      rw [transaction, call] at done
      obtain ⟨result, uploaded, _⟩ := bind_ok done
      rcases checkGeneration_ok.mp (uploadObject_ok.mp uploaded).2.1 generation rfl with
        ⟨zero, none⟩ | has
      · exact Or.inr ⟨zero, by rw [generationOf, none]; rfl⟩
      · exact Or.inl has
  · refine ⟨fun has => ?_, ?_, fun succeeds => Or.inr ⟨⟨_, call⟩, succeeds⟩⟩
    · obtain ⟨object, loaded, found⟩ := Option.map_eq_some_iff.mp has
      have checked : checkGeneration (some object) (some generation) name = .ok () := by
        refine checkGeneration_ok.mpr fun wanted same => ?_
        cases same
        exact Or.inr (congrArg some found)
      have deletes : ∀ after, deleteObject event.before bucket name (some generation) = .ok after ↔ _ :=
        fun _ => deleteObject_ok
      obtain ⟨⟨response, after⟩, done⟩ :
          ∃ result, transaction event.before event.input = .ok result := by
        rw [transaction, call]
        exact ⟨_, ok_bind ((deletes _).mpr ⟨there object loaded, object, loaded, checked, rfl⟩) rfl⟩
      rw [Event.Taken, perform, commit_ok done] at taken
      exact ⟨_, (congrArg Prod.fst taken).symm⟩
    · rintro ⟨response, output⟩
      have done := taken_ok taken output
      rw [transaction, call] at done
      obtain ⟨result, deleted, _⟩ := bind_ok done
      obtain ⟨_, stored, loaded, checked, _⟩ := deleteObject_ok.mp deleted
      rcases checkGeneration_ok.mp checked generation rfl with ⟨_, none⟩ | has
      · cases none
      · exact Or.inl (by rw [generationOf, loaded]; exact has)

/-! ### Fresh readings -/

/-- **The clock moves on between the writes of an object**, and does not read zero there. -/
def FreshReadings (history : List GcsEvent) : Prop :=
  ∀ past write rest bucket name, history = past ++ write :: rest → Writes write bucket name →
    nowTs write.input.now ≠ 0 ∧
    ∀ earlier ∈ past, Writes earlier bucket name →
      nowTs earlier.input.now ≠ nowTs write.input.now

theorem FreshReadings.past {history rest : List GcsEvent} (fresh : FreshReadings (history ++ rest)) :
    FreshReadings history := by
  rintro past write later bucket name rfl writes
  exact fresh past write (later ++ rest) bucket name (by simp) writes

/-- **A generation that was replaced does not come back.** -/
theorem not_again {project : String} {history rest : List GcsEvent} {middle store : GcsStore}
    (run : GcsRun project history middle) (runRest : Run perform middle rest store)
    (fresh : FreshReadings (history ++ rest)) {bucket name : String} {generation : Int}
    (had : generationOf middle bucket name = some generation)
    (changed : ∃ event ∈ rest, Changes event bucket name) :
    generationOf store bucket name ≠ some generation := by
  intro again
  obtain ⟨pastFirst, first, restFirst, rfl, writesFirst, readFirst, _⟩ := written_since run had
  obtain ⟨past, write, later, same, writes, read, unchanged⟩ :=
    written_since (run.append runRest) again
  obtain ⟨event, member, changes⟩ := changed
  -- the last write is among the later steps: something changes the object there
  have inRest : first ∈ past := by
    rcases List.append_eq_append_iff.mp same with ⟨tail, pastIs, _⟩ | ⟨tail, historyIs, laterIs⟩
    · rw [pastIs]
      simp
    · cases tail with
      | nil =>
        rw [List.append_nil] at historyIs
        rw [← historyIs]
        simp
      | cons head tail =>
        obtain ⟨rfl, laterSame⟩ := List.cons.inj laterIs
        refine absurd changes (unchanged event ?_)
        rw [laterSame]
        exact List.mem_append_right _ member
  exact (fresh past write later bucket name same writes).2 first inRest writesFirst
    (readFirst.trans read.symm)

/-- **Generations compare and swap.** If the clock moves on between the writes of an object, a write
has a generation that the object never had; a write or a delete that asks for a generation that the
object had succeeds if and only if nothing has changed the object since; and of two that ask for one
generation, the second fails, unless they create the object and it was deleted in between. -/
theorem generations_compare_and_swap {project : String} {history : List GcsEvent} {store : GcsStore}
    (run : GcsRun project history store) (fresh : FreshReadings history) (bucket name : String) :
    (∀ past write rest, history = past ++ write :: rest → Writes write bucket name →
      ∃ generation, generationOf write.after bucket name = some generation ∧
        ∀ earlier ∈ past ++ [write],
          generationOf earlier.before bucket name ≠ some generation) ∧
    (∀ past read between event rest generation,
      history = past ++ read :: (between ++ event :: rest) →
      generationOf read.after bucket name = some generation →
      Asks event bucket name generation →
      (Succeeds event ↔ ∀ other ∈ between, ¬ Changes other bucket name)) ∧
    ∀ past first between second rest generation,
      history = past ++ first :: (between ++ second :: rest) →
      Asks first bucket name generation → Asks second bucket name generation →
      Succeeds first → Succeeds second →
      generation = 0 ∧ ∃ other ∈ between, Deletes other bucket name := by
  have housed : ∀ past event rest, history = past ++ event :: rest → Housed event.before := by
    rintro past event rest rfl
    have start : Housed (GcsStore.empty project) := nofun
    exact run.around.1.invariant start fun _ taken before => housed_taken taken before
  refine ⟨?_, ?_, ?_⟩
  · rintro past write rest rfl writes
    obtain ⟨runPast, taken, _⟩ := run.around
    have made : generationOf write.after bucket name = some (nowTs write.input.now) := by
      rcases generation_taken taken bucket name with ⟨_, made⟩ | ⟨⟨⟨_, call⟩, _⟩, _⟩ | ⟨still, _⟩
      · exact made
      · obtain ⟨⟨_, _, _, _, other⟩, _⟩ := writes
        rw [call] at other
        cases other
      · exact absurd (Or.inl writes) still
    refine ⟨_, made, fun earlier member had => ?_⟩
    obtain ⟨before, after, cut⟩ : ∃ before after, past = before ++ after ∧
        GcsRun project before earlier.before := by
      rcases List.mem_append.mp member with old | own
      · obtain ⟨before, after, rfl⟩ := List.append_of_mem old
        exact ⟨before, earlier :: after, rfl, runPast.around.1⟩
      · rw [List.mem_singleton.mp own]
        exact ⟨past, [], by simp, runPast⟩
    obtain ⟨rfl, runBefore⟩ := cut
    obtain ⟨first, made, later, rfl, writesFirst, read, _⟩ := written_since runBefore had
    exact (fresh _ write rest bucket name rfl writes).2 made (by simp) writesFirst read
  · rintro past read between event rest generation rfl had asks
    have whole : past ++ read :: (between ++ event :: rest) =
        ((past ++ [read]) ++ between) ++ event :: rest := by simp
    have housedEvent := housed _ event rest whole
    rw [whole] at run fresh
    obtain ⟨runBefore, taken, _⟩ := run.around
    obtain ⟨middle, runRead, runBetween⟩ := runBefore.split
    obtain ⟨_, _, rfl⟩ := runRead.last
    obtain ⟨has, succeeded, _⟩ := asks_taken taken housedEvent asks
    constructor
    · rintro succeeds other member changes
      have gone := not_again runRead runBetween fresh.past had ⟨other, member, changes⟩
      rcases succeeded succeeds with again | ⟨zero, _⟩
      · exact gone again
      · obtain ⟨before, write, later, same, writes, reading, _⟩ := written_since runRead had
        refine (fresh before write (later ++ between ++ event :: rest) bucket name ?_ writes).1
          (reading.trans zero)
        rw [same]
        simp
    · exact fun unchanged => has ((generation_kept runBetween unchanged).trans had)
  · rintro past first between second rest generation rfl asksFirst asksSecond done doneSecond
    have whole : past ++ first :: (between ++ second :: rest) =
        ((past ++ [first]) ++ between) ++ second :: rest := by simp
    have housedFirst := housed past first _ rfl
    have housedSecond := housed _ second rest whole
    obtain ⟨runPast, takenFirst, _⟩ := run.around
    obtain ⟨_, succeededFirst, changesFirst⟩ := asks_taken takenFirst housedFirst asksFirst
    rw [whole] at run fresh
    obtain ⟨runBefore, takenSecond, _⟩ := run.around
    obtain ⟨middle, runFirst, runBetween⟩ := runBefore.split
    obtain ⟨_, succeededSecond, _⟩ := asks_taken takenSecond housedSecond asksSecond
    have runNext : Run perform first.before (first :: between) second.before := by
      obtain ⟨_, _, rfl⟩ := runFirst.last
      exact Run.cons takenFirst runBetween
    rcases succeededFirst done with had | ⟨zero, absent⟩
    · -- the first one has replaced the generation
      have fresh' : FreshReadings (past ++ (first :: between)) := by
        have := fresh.past
        rwa [List.append_assoc] at this
      have gone := not_again runPast runNext fresh' had ⟨first, by simp, changesFirst done⟩
      rcases succeededSecond doneSecond with again | ⟨zero, _⟩
      · exact absurd again gone
      · obtain ⟨before, write, later, same, writes, reading, _⟩ := written_since runPast had
        refine absurd (reading.trans zero)
          (fresh before write (later ++ [first] ++ between ++ second :: rest) bucket name ?_ writes).1
        rw [same]
        simp
    · refine ⟨zero, ?_⟩
      by_contra none
      have kept : ∀ other ∈ between, ¬ Deletes other bucket name :=
        fun other member deletes => none ⟨other, member, deletes⟩
      obtain ⟨_, _, rfl⟩ := runFirst.last
      -- the first one has created the object, with a generation that is not zero
      have made : generationOf first.after bucket name = some (nowTs first.input.now) := by
        rcases generation_taken takenFirst bucket name with ⟨_, made⟩ | ⟨deletes, _⟩ | ⟨still, _⟩
        · exact made
        · exact absurd absent (deletes_present takenFirst deletes)
        · exact absurd (changesFirst done) still
      have there := present_kept runBetween kept (by rw [made]; exact Option.some_ne_none _)
      rcases succeededSecond doneSecond with has | ⟨_, absent⟩
      · obtain ⟨before, write, later, same, writes, reading, _⟩ := written_since runBefore has
        refine (fresh before write (later ++ second :: rest) bucket name ?_ writes).1
          (reading.trans zero)
        rw [same]
        simp
      · exact there absent

/-! ### Two clients replace one generation -/

/-- A clock that moves on with every call. -/
theorem fresh_of_distinct {start : GcsStore} {inputs : List GcsInput}
    (distinct : (inputs.map fun input => nowTs input.now).Nodup)
    (nonzero : ∀ input ∈ inputs, nowTs input.now ≠ 0) :
    FreshReadings (Run.trace perform start inputs) := by
  intro past write rest bucket name same _
  have cut := congrArg (List.map Event.input) same
  rw [Run.trace_inputs, List.map_append, List.map_cons] at cut
  refine ⟨nonzero _ (by rw [cut]; simp), fun earlier member _ equal => ?_⟩
  rw [cut, List.map_append, List.map_cons] at distinct
  refine (List.nodup_append.mp distinct).2.2 _ ?_ _ (List.mem_cons_self ..) equal
  exact List.mem_map_of_mem (List.mem_map_of_mem member)

end External

section Sample

attribute [local instance] External.sample

def writeAt (now : Int) (want : Option Int) : GcsInput where
  now := now
  call := .uploadObject "b" "o" [] "text/plain" (.obj []) want

/-- Three writes of an object: the first creates it, the others ask for the generation it has then. -/
def writesAt (second third : Int) : List GcsInput :=
  [{ now := 1000, call := .createBucket "b" none }, writeAt 2000 none, writeAt second (some 2),
    writeAt third (some 2)]

def historyAt (second third : Int) : List GcsEvent :=
  Run.trace perform (GcsStore.empty "p") (writesAt second third)

theorem historyAt_cut (second third : Int) : ∃ past two three,
    historyAt second third = past ++ two :: ([] ++ three :: []) ∧
      Asks two "b" "o" 2 ∧ Asks three "b" "o" 2 :=
  ⟨[_, _], _, _, rfl, Or.inl ⟨_, _, _, rfl⟩, Or.inl ⟨_, _, _, rfl⟩⟩

/-- The clock moves on: of two clients that ask for the generation, the second fails. -/
theorem generations_compare_and_swap_sample : ∃ past two three,
    historyAt 3000 4000 = past ++ two :: ([] ++ three :: []) ∧
      Asks two "b" "o" 2 ∧ Asks three "b" "o" 2 ∧ (Succeeds two → ¬ Succeeds three) := by
  obtain ⟨past, two, three, cut, asksTwo, asksThree⟩ := historyAt_cut 3000 4000
  have distinct : ((writesAt 3000 4000).map fun input => nowTs input.now).Nodup := by decide
  have fresh : FreshReadings (historyAt 3000 4000) := fresh_of_distinct distinct (by decide)
  obtain ⟨_, _, once⟩ := generations_compare_and_swap
    (Run.of_trace perform (writesAt 3000 4000) (GcsStore.empty "p")) fresh "b" "o"
  refine ⟨past, two, three, cut, asksTwo, asksThree, fun done doneThree => ?_⟩
  exact absurd (once past two [] three [] 2 cut asksTwo asksThree done doneThree).1 (by decide)

/-- **Two clients replace one generation**: the first write has the generation that it replaces. -/
theorem generation_reused : ∃ history store past two three,
    GcsRun "p" history store ∧ Clocked GcsInput.now history ∧
      history = past ++ two :: ([] ++ three :: []) ∧
      Asks two "b" "o" 2 ∧ Asks three "b" "o" 2 ∧ Succeeds two ∧ Succeeds three ∧
      generationOf two.before "b" "o" = generationOf two.after "b" "o" := by
  refine ⟨historyAt 2000 2000, _, [_, _], _, _, Run.of_trace _ _ _, ?_, rfl,
    Or.inl ⟨_, _, _, rfl⟩, Or.inl ⟨_, _, _, rfl⟩, ⟨_, rfl⟩, ⟨_, rfl⟩, rfl⟩
  have clocked : (writesAt 2000 2000).Pairwise fun first second => first.now ≤ second.now := by
    decide
  rw [← Run.trace_inputs perform (writesAt 2000 2000) (GcsStore.empty "p"),
    List.pairwise_map] at clocked
  exact clocked

end Sample

end CloudTwin.Gcs
