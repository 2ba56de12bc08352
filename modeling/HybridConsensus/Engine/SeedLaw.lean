import HybridConsensus.Engine.Recording
import HybridConsensus.Engine.Universal

/-!
# What a hash library promises

A library may refuse any request and may keep any state, but a hash that it gives is a function of
the data and of the text that seeded the cache of the machine. The law says so call by call: a new
cache is blank, seeding a blank cache makes a cache of that text, a machine on such a cache works
for that text, and goes on doing so however often it computes.
-/

namespace HybridConsensus

variable {World Flags Cache Vm : Type}

structure HashLibrary.SeedLaw (library : HashLibrary World Flags Cache Vm)
    (output : (seed data : List UInt8) → Digest) where
  blank : World → Cache → Prop
  made : World → Cache → (seed : List UInt8) → Prop
  works : World → Vm → (seed : List UInt8) → Prop
  blank_of_allocateCache : ∀ {flags before cache after},
    library.allocateCache flags before = (.ok cache, after) → blank after cache
  made_of_initCache : ∀ {cache seed before seeded after}, blank before cache →
    library.initCache cache seed before = (.ok seeded, after) → made after seeded seed
  works_of_createVm : ∀ {flags cache seed before vm after}, made before cache seed →
    library.createVm flags cache before = (.ok vm, after) → works after vm seed
  works_after_compute : ∀ {vm seed data before answer after}, works before vm seed →
    library.compute vm data before = (answer, after) → works after vm seed
  output_of_compute : ∀ {vm seed data before hash after}, works before vm seed →
    library.compute vm data before = (.ok hash, after) → hash = output seed data

/-- A recording library keeps the law, whatever it refuses. -/
def RecordingRules.seedLaw (rules : RecordingRules) : rules.library.SeedLaw rules.output where
  blank _ _ := True
  made _ cache seed := cache.seed = seed
  works _ vm seed := vm.seed = seed
  blank_of_allocateCache _ := trivial
  made_of_initCache {cache seed before seeded after} _ h := by
    simp only [RecordingRules.library] at h
    split at h
    · cases h
    · cases h
      rfl
  works_of_createVm {flags cache seed before vm after} hmade h := by
    simp only [RecordingRules.library] at h
    split at h
    · cases h
    · cases h
      exact hmade
  works_after_compute hworks _ := hworks
  output_of_compute {vm seed data before hash after} hworks h := by
    simp only [RecordingRules.library] at h
    split at h
    · cases h
    · cases h
      rw [hworks]

/-- The universal hash of the seed's digest followed by the data. -/
def universalOutput (seed data : List UInt8) : Digest :=
  Universal.digest ((Blake3.digest seed).toList ++ data)

/-- The universal library keeps the law. -/
def universalSeedLaw : universalLibrary.SeedLaw universalOutput where
  blank _ _ := True
  made _ cache seed := cache.key = some (Blake3.digest seed)
  works _ vm seed := vm.key = Blake3.digest seed
  blank_of_allocateCache _ := trivial
  made_of_initCache {cache seed before seeded after} _ h := by
    simp only [universalLibrary] at h
    split at h
    · cases h
    · have hseeded := Except.ok.inj (Prod.mk.inj h).1
      rw [← hseeded]
  works_of_createVm {flags cache seed before vm after} hmade h := by
    simp only [universalLibrary, hmade] at h
    have hvm := Except.ok.inj (Prod.mk.inj h).1
    rw [← hvm]
  works_after_compute hworks _ := hworks
  output_of_compute {vm seed data before hash after} hworks h := by
    simp only [universalLibrary, hworks] at h
    have hhash := Except.ok.inj (Prod.mk.inj h).1
    rw [← hhash, universalOutput]

end HybridConsensus
