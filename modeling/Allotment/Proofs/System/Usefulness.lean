import Allotment.Proofs.System.Bounds
import Allotment.Proofs.System.Requests

set_option autoImplicit false

/-!
Which configurations are of any use. A request for at least one byte takes a whole unit, so an
arena serves some such request exactly while it has a unit left, and over all runs one is served
exactly if the capacity holds a unit. Validation asks for less, a single byte: it accepts every
configuration that is of use, and is exact except for the capacities between nothing and a
unit. These it accepts, although every such request to their arenas is refused.
-/

namespace Allotment

/-- A request for at least one byte takes at least one unit. -/
theorem le_roundUp_of_pos {size : ℕ} (h : 0 < size) : 8 ≤ roundUp size := by
  unfold roundUp
  omega

/-- An arena has room for some request that is not empty as long as a unit is left. -/
theorem Arena.exists_place_of_pos_iff (arena : Arena) :
    (∃ size region, 0 < size ∧ arena.place size = .ok region) ↔
      arena.used.toNat + 8 ≤ arena.capacity.toNat := by
  constructor
  · rintro ⟨size, region, hpos, hplace⟩
    have hunit := le_roundUp_of_pos (UInt64.lt_iff_toNat_lt.1 hpos)
    have hroom := (arena.exists_place_iff size).1 ⟨region, hplace⟩
    omega
  · intro hroom
    obtain ⟨region, hplace⟩ := (arena.exists_place_iff 1).2 hroom
    exact ⟨1, region, by decide, hplace⟩

/-- There is an arena of a capacity exactly when its buffer is not beyond the greatest one. -/
theorem Arena.exists_create_iff (capacity : UInt64) :
    (∃ arena, create capacity = .ok arena) ↔ roundUp capacity.toNat ≤ maxBufferSize := by
  rw [create_eq]
  split <;> simp [*]

/-- A configuration passes exactly when its capacity is positive. -/
theorem Configuration.validate_eq_ok_iff (config : Configuration) :
    config.validate = .ok () ↔ 0 < config.capacity := by
  unfold validate
  rw [UInt64.pos_iff_ne_zero]
  split <;> simp [*]

namespace System

variable {s : System} {id : ArenaId} {config : Configuration} {context : Context}

/-- An arena serves some request for at least one byte. -/
def Serves (s : System) (id : ArenaId) : Prop :=
  ∃ size region, 0 < size ∧ (s.alloc id size).1 = .ok region

/-- An arena serves some request for at least one byte exactly when it has a whole unit left. -/
theorem serves_iff :
    s.Serves id ↔
      ∃ arena, s.arena? id = some arena ∧ arena.used.toNat + 8 ≤ arena.capacity.toNat := by
  unfold Serves
  cases harena : s.arena? id with
  | none =>
    simp only [alloc, unknown_onArena harena, reduceCtorEq, and_false, exists_false, false_and]
  | some arena =>
    obtain ⟨account, hslot⟩ := arena?_eq_some.1 harena
    simp only [fst_alloc_eq_ok_iff hslot, Option.some.injEq, exists_eq_left']
    exact arena.exists_place_of_pos_iff

/-- An arena that serves some such request has the capacity of at least one unit. -/
theorem Serves.exists_arena (h : s.Serves id) :
    ∃ arena, s.arena? id = some arena ∧ 8 ≤ arena.capacity := by
  obtain ⟨arena, harena, hroom⟩ := serves_iff.1 h
  exact ⟨arena, harena, UInt64.le_iff_toNat_le.2 ((Nat.le_add_left 8 _).trans hroom)⟩

/-- A context is set up from every configuration that passes, as far as there can be a buffer
for it. -/
theorem exists_createContext_iff (s : System) (config : Configuration) :
    (∃ context, (s.createContext config).1 = .ok context) ↔
      config.validate = .ok () ∧ ∃ arena, Arena.create config.capacity = .ok arena := by
  unfold createContext
  cases config.validate with
  | error error => simp
  | ok passed =>
    unfold buildContext
    cases Arena.create config.capacity <;> simp

section Context

variable (h : (s.createContext config).1 = .ok context)
include h

/-- The arena of a new context has granted nothing and has the capacity that was asked for. -/
theorem arena?_createContext :
    ∃ arena, (s.createContext config).2.arena? context.arena = some arena ∧
      arena.used = 0 ∧ arena.capacity = config.capacity := by
  unfold createContext at h ⊢
  cases hvalid : config.validate with
  | error error =>
    rw [hvalid] at h
    cases h
  | ok passed =>
    rw [hvalid] at h
    unfold buildContext at h ⊢
    cases hbuilt : Arena.create config.capacity with
    | error violation =>
      rw [hbuilt] at h
      cases h
    | ok built =>
      rw [hbuilt] at h
      obtain rfl := Except.ok.inj h
      obtain ⟨-, rfl⟩ := Arena.ofBytes_eq_ok (Arena.ofBytes_of_create hbuilt)
      exact ⟨_, arena?_eq_some.2 ⟨_, Array.getElem?_push_size⟩, rfl, rfl⟩

/-- The arena of a new context serves some request for at least one byte exactly when its
capacity is at least a unit. -/
theorem serves_createContext_iff :
    (s.createContext config).2.Serves context.arena ↔ 8 ≤ config.capacity := by
  obtain ⟨arena, harena, hused, hcapacity⟩ := arena?_createContext h
  rw [serves_iff, harena, UInt64.le_iff_toNat_le, ← hcapacity]
  simp [hused]

/-- However a system goes on after a context was set up, the arena of the context serves a
request that is not empty at some moment only if its capacity holds a unit. -/
theorem exists_serves_iff :
    (∃ actions, ((s.createContext config).2.run actions).2.Serves context.arena) ↔
      8 ≤ config.capacity := by
  constructor
  · rintro ⟨actions, hserves⟩
    obtain ⟨arena, harena, -, hcapacity⟩ := arena?_createContext h
    obtain ⟨later, hlater, hunit⟩ := hserves.exists_arena
    obtain ⟨account, hslot⟩ := arena?_eq_some.1 harena
    obtain ⟨owner, hslot'⟩ := arena?_eq_some.1 hlater
    rwa [capacity_run hslot actions hslot', hcapacity] at hunit
  · intro hunit
    exact ⟨[], (serves_createContext_iff h).2 hunit⟩

end Context

end System

namespace Configuration

/-- At some moment of some run, an arena of that capacity serves a request for at least one
byte. -/
def IsUseful (config : Configuration) : Prop :=
  ∃ (s : System) (id : ArenaId) (arena : Arena), s.Attained ∧ s.arena? id = some arena ∧
    arena.capacity = config.capacity ∧ s.Serves id

/-- A capacity for which there is a buffer is of use exactly when it is at least a unit. -/
theorem isUseful_iff {config : Configuration}
    (hbuffer : ∃ arena, Arena.create config.capacity = .ok arena) :
    config.IsUseful ↔ 8 ≤ config.capacity := by
  constructor
  · rintro ⟨s, id, arena, -, harena, hcapacity, hserves⟩
    obtain ⟨found, hfound, hunit⟩ := hserves.exists_arena
    obtain rfl := Option.some.inj (harena.symm.trans hfound)
    rwa [hcapacity] at hunit
  · intro hunit
    -- the arena of a context in an empty system will do, before anything is granted of it
    have hvalid := config.validate_eq_ok_iff.2 (UInt64.lt_of_lt_of_le (by decide) hunit)
    obtain ⟨context, hmade⟩ := (System.exists_createContext_iff {} config).2 ⟨hvalid, hbuffer⟩
    obtain ⟨arena, harena, -, hcapacity⟩ := System.arena?_createContext hmade
    have hattained := (System.Attained.start Host.standard).performed (.createContext config)
    exact ⟨_, context.arena, arena, hattained, harena, hcapacity,
      (System.serves_createContext_iff hmade).2 hunit⟩

/-- Whatever the capacity is, as long as there can be a buffer for it: some request for at
least one byte is ever served by an arena of that capacity if and only if the capacity holds a
unit. A context is set up exactly if validation accepts its configuration, and then its arena
serves such a request, at once or later, if and only if the configuration is of use. Validation
accepts every configuration that is of use; it accepts one that is not if and only if the capacity
is neither zero nor as much as a unit. -/
theorem validation_exact_iff (config : Configuration)
    (hbuffer : ∃ arena, Arena.create config.capacity = .ok arena) :
    (config.IsUseful ↔ 8 ≤ config.capacity) ∧
    (∀ s : System,
      ((∃ context, (s.createContext config).1 = .ok context) ↔ config.validate = .ok ()) ∧
      ∀ context, (s.createContext config).1 = .ok context →
        ((∃ actions, ((s.createContext config).2.run actions).2.Serves context.arena) ↔
          config.IsUseful)) ∧
    (config.IsUseful → config.validate = .ok ()) ∧
    ((config.validate = .ok () ↔ config.IsUseful) ↔
      ¬ (0 < config.capacity ∧ config.capacity < 8)) := by
  have hvalid := config.validate_eq_ok_iff
  have huseful := isUseful_iff hbuffer
  have hunit : 8 ≤ config.capacity → 0 < config.capacity := UInt64.lt_of_lt_of_le (by decide)
  refine ⟨huseful, ?_, fun h => hvalid.2 (hunit (huseful.1 h)), ?_⟩
  · intro s
    refine ⟨?_, ?_⟩
    · rw [System.exists_createContext_iff, and_iff_left hbuffer]
    · intro context hmade
      rw [System.exists_serves_iff hmade, huseful]
  · rw [hvalid, huseful, not_and, UInt64.not_lt]
    exact ⟨Iff.mp, fun h => ⟨h, hunit⟩⟩

/-- The least configuration that is of use, and a context that is set up from it. -/
theorem validation_exact_of_unit :
    let config : Configuration := { capacity := 8 }
    let made := System.createContext {} config
    (∃ arena, Arena.create config.capacity = .ok arena) ∧ config.IsUseful ∧
      (config.validate = .ok () ↔ config.IsUseful) ∧
      ∃ context, made.1 = .ok context ∧
        ∃ actions, (made.2.run actions).2.Serves context.arena := by
  intro config made
  have hbuffer : ∃ arena, Arena.create config.capacity = .ok arena :=
    (Arena.exists_create_iff 8).2 (by decide)
  obtain ⟨huseful, hcontexts, haccepted, hexact⟩ := validation_exact_iff config hbuffer
  obtain ⟨hmade, hserves⟩ := hcontexts {}
  have hunit : config.IsUseful := huseful.2 (by decide)
  obtain ⟨context, hcontext⟩ := hmade.2 (haccepted hunit)
  exact ⟨hbuffer, hunit, hexact.2 (by decide), context, hcontext,
    (hserves context hcontext).2 hunit⟩

/-- The greatest configuration that validation accepts although it is of no use. -/
theorem validation_inexact_at_seven :
    let config : Configuration := { capacity := 7 }
    (∃ arena, Arena.create config.capacity = .ok arena) ∧ config.validate = .ok () ∧
      ¬ config.IsUseful := by
  intro config
  have hbuffer : ∃ arena, Arena.create config.capacity = .ok arena :=
    (Arena.exists_create_iff 7).2 (by decide)
  refine ⟨hbuffer, config.validate_eq_ok_iff.2 (by decide), ?_⟩
  rw [isUseful_iff hbuffer]
  decide

end Configuration

end Allotment
