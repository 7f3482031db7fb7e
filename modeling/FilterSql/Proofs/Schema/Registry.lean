import Mathlib.Data.List.Nodup
import Mathlib.Logic.Relation
import Mathlib.Tactic.Common
import FilterSql.Schema.Registry

/-!
# Sharing a registry

Any number of callers ask one registry for the objects of entity types. A call looks its
type up, and when there is no object it builds the schema without holding the registry
and then publishes it. While it builds it may make calls in turn. So calls of all callers
mix in any order, several of them may miss the same type, and all of these build.

Results:
* `Registry.publish_cases`: publishing finds an entry, or adds one with a new number.
* `Step.entries_prefix`: no step takes an entry away or changes one.
* `Step.sound`: what one step preserves.
* `obtain_run`: a call that nobody interrupts.
* `schemas_registered_once`: what holds after every run.
-/

namespace FilterSql

/-! ## Specification -/

/-- How far a call has come. -/
inductive Phase where
  /-- It has not looked its type up. -/
  | looking
  /-- It has found no object, and builds the schema. -/
  | building
  /-- It has built a schema that it has not published. -/
  | publishing (schema : Schema)

/-- A call for the object of an entity type that has not returned. -/
structure Activation (κ : Type) where
  key : κ
  phase : Phase

/-- A registry and its callers. Each caller has a stack of calls, the innermost one first.
A call that has returned leaves its type and its object behind, also if the caller has
only asked for the schema to be registered. -/
structure World (ι κ : Type) where
  registry : Registry κ := {}
  calls : ι → List (Activation κ) := fun _ => []
  returned : List (κ × SharedSchema) := []

variable {ι κ : Type} [DecidableEq ι]

namespace World

/-- Puts other calls in the place of those of a caller. -/
def setCalls (world : World ι κ) (caller : ι) (calls : List (Activation κ)) : World ι κ :=
  { world with calls := Function.update world.calls caller calls }

/-- Ends the innermost call of a caller. -/
def finish (world : World ι κ) (caller : ι) (outer : List (Activation κ)) (key : κ)
    (shared : SharedSchema) : World ι κ :=
  { world.setCalls caller outer with returned := world.returned ++ [(key, shared)] }

/-- A caller can make a call when it is in none, or when its innermost call builds. -/
def IsFree (world : World ι κ) (caller : ι) : Prop :=
  ∀ innermost ∈ (world.calls caller).head?, innermost.phase = .building

@[simp]
theorem calls_setCalls (world : World ι κ) (caller : ι) (calls : List (Activation κ)) :
    (world.setCalls caller calls).calls caller = calls := by
  simp [setCalls]

@[simp]
theorem registry_setCalls (world : World ι κ) (caller : ι) (calls : List (Activation κ)) :
    (world.setCalls caller calls).registry = world.registry :=
  rfl

@[simp]
theorem returned_setCalls (world : World ι κ) (caller : ι) (calls : List (Activation κ)) :
    (world.setCalls caller calls).returned = world.returned :=
  rfl

@[simp]
theorem setCalls_setCalls (world : World ι κ) (caller : ι) (first second : List (Activation κ)) :
    (world.setCalls caller first).setCalls caller second = world.setCalls caller second := by
  simp [setCalls]

@[simp]
theorem setCalls_self (world : World ι κ) (caller : ι) :
    world.setCalls caller (world.calls caller) = world := by
  simp [setCalls]

end World

variable [DecidableEq κ]

/-- One atomic step of one caller. What a type says of itself when its schema is built is
left open by `describes`. -/
inductive Step (describes : κ → EntityDescription → Prop) : World ι κ → World ι κ → Prop where
  | call {world : World ι κ} (caller : ι) (key : κ) (free : world.IsFree caller) :
      Step describes world (world.setCalls caller (⟨key, .looking⟩ :: world.calls caller))
  | found {world : World ι κ} (caller : ι) {key : κ} {outer : List (Activation κ)}
      {shared : SharedSchema} (turn : world.calls caller = ⟨key, .looking⟩ :: outer)
      (registered : world.registry.find? key = some shared) :
      Step describes world (world.finish caller outer key shared)
  | missed {world : World ι κ} (caller : ι) {key : κ} {outer : List (Activation κ)}
      (turn : world.calls caller = ⟨key, .looking⟩ :: outer)
      (missing : world.registry.find? key = none) :
      Step describes world (world.setCalls caller (⟨key, .building⟩ :: outer))
  | built {world : World ι κ} (caller : ι) {key : κ} {outer : List (Activation κ)}
      {entity : EntityDescription} (turn : world.calls caller = ⟨key, .building⟩ :: outer)
      (description : describes key entity) :
      Step describes world (world.setCalls caller (⟨key, .publishing entity.schema⟩ :: outer))
  | published {world : World ι κ} (caller : ι) {key : κ} {outer : List (Activation κ)}
      {schema : Schema} (turn : world.calls caller = ⟨key, .publishing schema⟩ :: outer) :
      Step describes world
        { world.finish caller outer key (world.registry.publish key schema).1 with
          registry := (world.registry.publish key schema).2 }

/-- Any number of steps, of any callers in any order. -/
def Steps (describes : κ → EntityDescription → Prop) : World ι κ → World ι κ → Prop :=
  Relation.ReflTransGen (Step describes)

/-! ## The registry -/

namespace Registry

variable {registry : Registry κ} {key : κ} {shared : SharedSchema}

theorem mem_of_find? (h : registry.find? key = some shared) : (key, shared) ∈ registry.entries := by
  obtain ⟨entry, hentry, rfl⟩ := Option.map_eq_some_iff.mp h
  have hkey : entry.1 = key := by simpa using List.find?_some hentry
  rw [← hkey]
  exact List.mem_of_find?_eq_some hentry

/-- An entry is found as long as entries are only added behind it. -/
theorem find?_of_prefix {later : Registry κ} (h : registry.entries <+: later.entries)
    (found : registry.find? key = some shared) : later.find? key = some shared := by
  obtain ⟨added, hadded⟩ := h
  rw [find?, ← hadded, List.find?_append, Option.map_or, ← find?, found, Option.some_or]

/-- Publishing finds an entry, or adds one with a new number. -/
theorem publish_cases (registry : Registry κ) (key : κ) (schema : Schema) :
    (∃ shared, registry.find? key = some shared ∧
      registry.publish key schema = (shared, registry)) ∨
    registry.find? key = none ∧ registry.publish key schema =
      (⟨registry.next, schema⟩,
        ⟨registry.entries ++ [(key, ⟨registry.next, schema⟩)], registry.next + 1⟩) := by
  rw [publish]
  cases hfind : registry.find? key with
  | none => exact .inr ⟨rfl, rfl⟩
  | some shared => exact .inl ⟨shared, rfl, rfl⟩

theorem entries_publish_prefix (registry : Registry κ) (key : κ) (schema : Schema) :
    registry.entries <+: (registry.publish key schema).2.entries := by
  obtain ⟨shared, _, hpublish⟩ | ⟨_, hpublish⟩ := registry.publish_cases key schema
  · have hsame : (registry.publish key schema).2 = registry := congrArg Prod.snd hpublish
    exact ⟨[], by rw [hsame, List.append_nil]⟩
  · rw [hpublish]
    exact List.prefix_append _ _

/-- What publishing returns is what is registered afterwards. -/
theorem find?_publish (registry : Registry κ) (key : κ) (schema : Schema) :
    (registry.publish key schema).2.find? key = some (registry.publish key schema).1 := by
  obtain ⟨shared, hfind, hpublish⟩ | ⟨hfind, hpublish⟩ := registry.publish_cases key schema
  · rw [hpublish]
    exact hfind
  · rw [hpublish]
    have hnone := Option.map_eq_none_iff.mp hfind
    simp [find?, List.find?_append, hnone]

end Registry

/-! ## What a step preserves -/

variable {describes : κ → EntityDescription → Prop} {world later : World ι κ}

/-- No step takes an entry away or changes one. -/
theorem Step.entries_prefix (h : Step describes world later) :
    world.registry.entries <+: later.registry.entries := by
  cases h with
  | published _ turn => exact world.registry.entries_publish_prefix _ _
  | _ => exact List.prefix_refl _

/-- A schema is one that the type has described. -/
def IsDescribed (describes : κ → EntityDescription → Prop) (key : κ) (schema : Schema) : Prop :=
  ∃ entity, describes key entity ∧ schema = entity.schema

/-- What holds of a registry and its callers at all times. -/
structure World.Sound (describes : κ → EntityDescription → Prop) (world : World ι κ) : Prop where
  /-- What has been returned is registered. -/
  returned : ∀ key shared, (key, shared) ∈ world.returned →
    world.registry.find? key = some shared
  /-- What is registered has been described. -/
  registered : ∀ entry ∈ world.registry.entries, IsDescribed describes entry.1 entry.2.schema
  /-- What is going to be published has been described. -/
  publishing : ∀ caller, ∀ activation ∈ world.calls caller, ∀ schema,
    activation.phase = .publishing schema → IsDescribed describes activation.key schema
  /-- The next number is a new one. -/
  numbered : ∀ entry ∈ world.registry.entries, entry.2.identity < world.registry.next
  /-- Different entries have different numbers. -/
  distinct : (world.registry.entries.map fun entry => entry.2.identity).Nodup

omit [DecidableEq ι] in
theorem World.sound_empty : World.Sound describes ({} : World ι κ) where
  returned := by simp
  registered := by simp
  publishing := by simp
  numbered := by simp
  distinct := List.nodup_nil

namespace World.Sound

/-- The calls of a caller may be replaced by calls that publish nothing new. -/
theorem setCalls (sound : world.Sound describes) {caller : ι} {calls : List (Activation κ)}
    (h : ∀ activation ∈ calls, ∀ schema, activation.phase = .publishing schema →
      activation ∈ world.calls caller ∨ IsDescribed describes activation.key schema) :
    (world.setCalls caller calls).Sound describes where
  returned := sound.returned
  registered := sound.registered
  numbered := sound.numbered
  distinct := sound.distinct
  publishing := by
    intro other activation member schema hphase
    by_cases hother : other = caller
    · subst hother
      simp only [World.setCalls, Function.update_self] at member
      rcases h activation member schema hphase with hbefore | hdescribed
      · exact sound.publishing other activation hbefore schema hphase
      · exact hdescribed
    · simp only [World.setCalls, Function.update_of_ne hother] at member
      exact sound.publishing other activation member schema hphase

theorem finish (sound : world.Sound describes) {caller : ι} {innermost : Activation κ}
    {outer : List (Activation κ)} (turn : world.calls caller = innermost :: outer) {key : κ}
    {shared : SharedSchema} (registered : world.registry.find? key = some shared) :
    (world.finish caller outer key shared).Sound describes := by
  have hcalls : (world.setCalls caller outer).Sound describes := by
    refine sound.setCalls fun activation member schema _ => .inl ?_
    rw [turn]
    exact List.mem_cons_of_mem _ member
  refine { hcalls with returned := ?_ }
  intro other object member
  rcases List.mem_append.mp member with hbefore | hnew
  · exact sound.returned other object hbefore
  · cases List.mem_singleton.mp hnew
    exact registered

omit [DecidableEq ι] in
theorem publish (sound : world.Sound describes) {key : κ} {schema : Schema}
    (described : IsDescribed describes key schema) :
    ({ world with registry := (world.registry.publish key schema).2 } : World ι κ).Sound
      describes := by
  obtain ⟨shared, _, hpublish⟩ | ⟨_, hpublish⟩ := world.registry.publish_cases key schema
  · rw [hpublish]
    exact sound
  · have hkept := world.registry.entries_publish_prefix key schema
    rw [hpublish] at hkept ⊢
    refine ⟨?_, ?_, sound.publishing, ?_, ?_⟩
    · intro other object member
      exact Registry.find?_of_prefix hkept (sound.returned other object member)
    · intro entry member
      rcases List.mem_append.mp member with hbefore | hnew
      · exact sound.registered entry hbefore
      · rw [List.mem_singleton.mp hnew]
        exact described
    · intro entry member
      rcases List.mem_append.mp member with hbefore | hnew
      · exact Nat.lt_succ_of_lt (sound.numbered entry hbefore)
      · rw [List.mem_singleton.mp hnew]
        exact Nat.lt_succ_self _
    · have hfresh : world.registry.next ∉ world.registry.entries.map (·.2.identity) := by
        rintro hold
        obtain ⟨entry, member, hnumber⟩ := List.mem_map.mp hold
        exact Nat.ne_of_lt (sound.numbered entry member) hnumber
      rw [List.map_append, List.map_singleton, ← List.concat_eq_append]
      exact sound.distinct.concat hfresh

end World.Sound

/-- What one step preserves. -/
theorem Step.sound (h : Step describes world later) (sound : world.Sound describes) :
    later.Sound describes := by
  cases h with
  | call caller key free =>
    refine sound.setCalls fun activation member schema hphase => ?_
    rcases List.mem_cons.mp member with rfl | houter
    · cases hphase
    · exact .inl houter
  | found caller turn registered => exact sound.finish turn registered
  | missed caller turn missing =>
    refine sound.setCalls fun activation member schema hphase => ?_
    rcases List.mem_cons.mp member with rfl | houter
    · cases hphase
    · exact .inl (turn ▸ List.mem_cons_of_mem _ houter)
  | @built caller key outer entity turn description =>
    refine sound.setCalls fun activation member schema hphase => ?_
    rcases List.mem_cons.mp member with rfl | houter
    · cases hphase
      exact .inr ⟨entity, description, rfl⟩
    · exact .inl (turn ▸ List.mem_cons_of_mem _ houter)
  | @published caller key outer schema turn =>
    -- The registry is changed first: what the call returns is registered only then.
    have hdescribed : IsDescribed describes key schema :=
      sound.publishing caller ⟨key, .publishing schema⟩ (by simp [turn]) schema rfl
    exact (sound.publish hdescribed).finish turn (world.registry.find?_publish key schema)

namespace Steps

theorem sound (run : Steps describes world later) (sound : world.Sound describes) :
    later.Sound describes := by
  induction run with
  | refl => exact sound
  | tail _ step ih => exact step.sound ih

theorem entries_prefix (run : Steps describes world later) :
    world.registry.entries <+: later.registry.entries := by
  induction run with
  | refl => exact List.prefix_refl _
  | tail _ step ih => exact ih.trans step.entries_prefix

end Steps

/-! ## A call that nobody interrupts -/

/-- A call that nobody interrupts obtains the object of its type. -/
theorem obtain_run (caller : ι) (key : κ) {entity : EntityDescription}
    (free : world.IsFree caller) (description : describes key entity) :
    Steps describes world
      { world with
        registry := (world.registry.obtain key entity).2
        returned := world.returned ++ [(key, (world.registry.obtain key entity).1)] } := by
  have hlooks : Steps describes world
      (world.setCalls caller (⟨key, .looking⟩ :: world.calls caller)) :=
    .single (.call caller key free)
  cases hfind : world.registry.find? key with
  | some shared =>
    have hfound := hlooks.tail (.found caller (World.calls_setCalls ..) hfind)
    simpa [Steps, Registry.obtain, hfind, World.finish] using hfound
  | none =>
    have hmissed := hlooks.tail (.missed caller (World.calls_setCalls ..) hfind)
    rw [World.setCalls_setCalls] at hmissed
    have hbuilt := hmissed.tail (.built caller (World.calls_setCalls ..) description)
    rw [World.setCalls_setCalls] at hbuilt
    have hpublished := hbuilt.tail (.published caller (World.calls_setCalls ..))
    simpa [Steps, Registry.obtain, hfind, World.finish] using hpublished

/-! ## Every run -/

/-- **A type has one schema object, and it never changes.** Callers share a registry that is
empty at first, and take their steps in any order. All calls for a type that return, return
the same object, and calls for different types return different ones. When the type always
describes itself in the same way, the schema is the one it describes. What has been
registered stays: entries are only added behind those that are there. -/
theorem schemas_registered_once (run : Steps describes {} world) :
    (∀ key first second, (key, first) ∈ world.returned → (key, second) ∈ world.returned →
      first = second) ∧
    (∀ key shared other different, (key, shared) ∈ world.returned →
      (other, different) ∈ world.returned → key ≠ other →
      shared.identity ≠ different.identity) ∧
    (∀ key shared entity, (key, shared) ∈ world.returned →
      (∀ described, describes key described → described = entity) →
      shared.schema = entity.schema) ∧
    (∀ key shared, (key, shared) ∈ world.returned →
      world.registry.find? key = some shared) ∧
    ∀ later, Steps describes world later →
      world.registry.entries <+: later.registry.entries ∧
      ∀ key shared, world.registry.find? key = some shared →
        later.registry.find? key = some shared := by
  have hsound : world.Sound describes := run.sound World.sound_empty
  refine ⟨?_, ?_, ?_, hsound.returned, ?_⟩
  · intro key first second hfirst hsecond
    have hfind := hsound.returned key first hfirst
    rw [hsound.returned key second hsecond] at hfind
    exact (Option.some.inj hfind).symm
  · intro key shared other different hshared hdifferent hkeys hsame
    have hentry := Registry.mem_of_find? (hsound.returned key shared hshared)
    have hother := Registry.mem_of_find? (hsound.returned other different hdifferent)
    have hentries := List.inj_on_of_nodup_map hsound.distinct hentry hother hsame
    exact hkeys (congrArg Prod.fst hentries)
  · intro key shared entity hshared honly
    have hentry := Registry.mem_of_find? (hsound.returned key shared hshared)
    obtain ⟨described, hdescribed, hschema⟩ := hsound.registered _ hentry
    rw [hschema, honly described hdescribed]
  · intro later further
    have hkept := further.entries_prefix
    exact ⟨hkept, fun key shared => Registry.find?_of_prefix hkept⟩

/-- Two callers miss the lines, and each asks for the orders while it builds. The one that
publishes last receives what the other has published. -/
theorem late_build_is_discarded :
    ∃ world : World Bool String,
      Steps (fun key entity => entity = { table := key, columns := [] }) {} world ∧
      (world.returned.map fun call => (call.1, call.2.identity)) =
        [("orders", 0), ("orders", 0), ("lines", 1), ("lines", 1)] ∧
      ∀ shared, ("lines", shared) ∈ world.returned →
        shared.schema.table = "lines" ∧ world.registry.find? "lines" = some shared := by
  have idle (caller : Bool) : ({} : World Bool String).IsFree caller := by
    intro innermost member
    cases member
  have start : Steps (fun key entity => entity = { table := key, columns := [] })
    ({} : World Bool String) {} := .refl
  have first := (start.tail (.call true "lines" (idle true))).tail (.missed true rfl rfl)
  have both := (first.tail (.call false "lines" (idle false))).tail (.missed false rfl rfl)
  have nested := both.trans (obtain_run true "orders" (by rintro _ ⟨⟩; rfl) rfl)
  have again := nested.trans (obtain_run false "orders" (by rintro _ ⟨⟩; rfl) rfl)
  have early := (again.tail (.built true rfl rfl)).tail (.published true rfl)
  have late := (early.tail (.built false rfl rfl)).tail (.published false rfl)
  obtain ⟨_, _, hschema, hregistered, _⟩ := schemas_registered_once late
  refine ⟨_, late, rfl, fun shared hreturned => ⟨?_, hregistered _ _ hreturned⟩⟩
  rw [hschema "lines" shared _ hreturned fun _ => id]
  rfl

end FilterSql
