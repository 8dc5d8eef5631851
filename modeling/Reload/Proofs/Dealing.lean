import Reload.Proofs.Concurrent.Sound
import Reload.Proofs.Holding

/-!
What programs do with references. A program takes, copies, trades and gives up references to artifacts,
resolvers, loaders and contexts, and it writes to caches (`Deal`); a ledger has the references that are
held, and the writes that there were. No deal leaves a reference uncounted (`Ledger.Counts`), brings
anything back to life, or removes an entry of a dead artifact without a write that is in the ledger
(`Ledger.Succeeds`).
-/

namespace Reload

/-- A write to the entries of a cache. -/
inductive Write where
  | publish (cache : CacheId)
  | invalidate (cache : CacheId) (name : Name)
  | clear (cache : CacheId)

namespace Write

/-- Whether a write removes all dead entries of a cache. -/
def Sweeps (cache : CacheId) : Write → Prop
  | publish other | clear other => other = cache
  | invalidate _ _ => False

/-- Whether a write removes the entry of a name, if that is dead. -/
def Ends (cache : CacheId) (name : Name) : Write → Prop
  | publish other | clear other => other = cache
  | invalidate other gone => other = cache ∧ gone = name

theorem Sweeps.ends {cache : CacheId} {write : Write} (sweeps : write.Sweeps cache) (name : Name) :
    write.Ends cache name := by
  cases write with
  | publish | clear => exact sweeps
  | invalidate => cases sweeps

end Write

/-- The references that are held, and the writes that there were, the latest one first. -/
structure Ledger where
  refs : Multiset Ref
  writes : List Write

/-- One thing that a program does, or several of them. References are only got from those who have
    them: a program copies what it has, builds resolvers and loaders of what it has, and gives up what it
    has. -/
inductive Deal : Ledger → World → Ledger → World → Prop where
  /-- What has to do with neither references nor entries. -/
  | aside {ledger : Ledger} {w w' : World}
      (frame : w' = { w with
        nextThread := w'.nextThread
        marker := w'.marker
        nextCache := w'.nextCache
        locks := w'.locks
        nextLock := w'.nextLock
        lock := w'.lock
        handles := w'.handles
        nextCounters := w'.nextCounters
        counters := w'.counters
        journal := w'.journal }) : Deal ledger w ledger w'
  | create {refs writes w} (name : Name) (imageSize : Nat)
      (payload : Payload) :
      Deal ⟨refs, writes⟩ w ⟨.artifact (w.create name imageSize payload).1 ::ₘ refs, writes⟩
        (w.create name imageSize payload).2
  /-- A copy of a reference, or a chain, a guarded resolver or a loader, or a table of units that
      nothing is linked into yet. -/
  | hold {refs writes w} {ref : Ref}
      (plain : ref.contextIds = 0) (holding : Holding refs ref.artifacts) :
      Deal ⟨refs, writes⟩ w ⟨ref ::ₘ refs, writes⟩ (w.retainAll ref.artifacts)
  /-- A copy of a reference to a context. -/
  | share {refs writes w} {context : MemoryContext}
      (own : .context context ∈ refs) :
      Deal ⟨refs, writes⟩ w ⟨.context context ::ₘ refs, writes⟩ (context.retain w)
  | drop {refs writes w} (ref : Ref) :
      Deal ⟨ref ::ₘ refs, writes⟩ w ⟨refs, writes⟩ (ref.drop w)
  /-- An artifact is linked in, and the one that it replaces comes back. -/
  | link {refs writes w} (units : Table Name Artifact)
      (artifact : Artifact) :
      Deal ⟨.artifact artifact ::ₘ .units units ::ₘ refs, writes⟩ w
        ⟨Ref.given (Resolver.link units artifact).1 +
          (.units (Resolver.link units artifact).2 ::ₘ refs), writes⟩ w
  /-- A table becomes a resolver that can be shared. -/
  | freeze {refs writes w} (units : Table Name Artifact) :
      Deal ⟨.units units ::ₘ refs, writes⟩ w ⟨.resolver (.linked units) ::ₘ refs, writes⟩ w
  | lookup {refs writes w} (cache : CacheId) (name : Name) :
      Deal ⟨refs, writes⟩ w ⟨Ref.given (w.lookup cache name).1 + refs, writes⟩
        (w.lookup cache name).2
  | resolve {refs writes w} (resolver : Resolver)
      (holding : Holding refs resolver.artifacts) (thread : ThreadId) (name : Name) :
      Deal ⟨refs, writes⟩ w
        ⟨Ref.given (resolver.resolve thread name w).1.toOption + refs, writes⟩
        (resolver.resolve thread name w).2
  | instantiate {refs writes w} (api : UInt16)
      (image : Bytes) (parent : Resolver) (holding : Holding refs parent.artifacts) :
      Deal ⟨refs, writes⟩ w
        ⟨Ref.made (MemoryContext.instantiate api image parent w).1.toOption + refs, writes⟩
        (MemoryContext.instantiate api image parent w).2
  | load {refs writes w} {context : MemoryContext}
      (own : .context context ∈ refs) (thread : ThreadId) (name : Name) :
      Deal ⟨refs, writes⟩ w ⟨Ref.given (context.load thread name w).1.toOption + refs, writes⟩
        (context.load thread name w).2
  | publish {refs writes w} (cache : CacheId) (name : Name)
      {artifact : Artifact} (holding : Holding refs [artifact]) :
      Deal ⟨refs, writes⟩ w ⟨refs, .publish cache :: writes⟩ (w.publish cache name artifact).2
  | invalidate {refs writes w} (cache : CacheId)
      (name : Name) :
      Deal ⟨refs, writes⟩ w ⟨refs, .invalidate cache name :: writes⟩ (w.invalidate cache name).2
  | clear {refs writes w} (cache : CacheId) :
      Deal ⟨refs, writes⟩ w ⟨refs, .clear cache :: writes⟩ (w.clear cache)
  | both {ledger ledger₁ ledger' : Ledger} {w w₁ w' : World} (first : Deal ledger w ledger₁ w₁)
      (second : Deal ledger₁ w₁ ledger' w') : Deal ledger w ledger' w'

/-! ### What has died -/

namespace World

/-- Whether an artifact was created and is held by nobody. -/
def Dead (w : World) (serial : Nat) : Prop := serial ≤ w.created ∧ serial ∉ w.held

/-- Whether the entry of a name is that of an artifact, dead or alive. -/
def Names (w : World) (cache : CacheId) (name : Name) (serial : Nat) : Prop :=
  ∃ found, (w.entries cache).get? name = some found ∧ found.serial = serial

variable {w w' : World}

theorem Buries.dead {serial : Nat} (buries : w.Buries w') (dead : w.Dead serial) :
    w'.Dead serial := by
  refine ⟨Nat.le_trans dead.1 buries.created, fun there => ?_⟩
  rcases buries.held serial there with before | ⟨later, -⟩
  · exact dead.2 before
  · exact absurd dead.1 (Nat.not_le.mpr later)

/-- What dead artifacts have lost are the entries that were removed by these writes. -/
def Fades (w : World) (since : List Write) (w' : World) : Prop :=
  ∀ serial, w.Dead serial → ∀ cache name, w'.Names cache name serial ↔
    w.Names cache name serial ∧ ∀ write ∈ since, ¬write.Ends cache name

theorem Fades.of_entries (entries : w'.entries = w.entries) : w.Fades [] w' := by
  intro serial _ cache name
  unfold Names
  rw [entries]
  exact (and_iff_left fun _ listed => by cases listed).symm

theorem Fades.trans {w₁ : World} {first second : List Write} (buries : w.Buries w₁)
    (before : w.Fades first w₁) (after : w₁.Fades second w') : w.Fades (second ++ first) w' := by
  intro serial dead cache name
  rw [after serial (buries.dead dead), before serial dead, List.forall_mem_append]
  constructor
  · rintro ⟨⟨named, spared⟩, still⟩
    exact ⟨named, still, spared⟩
  · rintro ⟨named, still, spared⟩
    exact ⟨⟨named, spared⟩, still⟩

/-- One write to a cache that puts nothing dead there, and removes what it ends. -/
private theorem fades_replace {cache : CacheId} {table : Table Name Artifact} {write : Write}
    (elsewhere : ∀ other name, other ≠ cache → ¬write.Ends other name)
    (here : ∀ serial, w.Dead serial → ∀ name,
      (∃ found, table.get? name = some found ∧ found.serial = serial) ↔
        w.Names cache name serial ∧ ¬write.Ends cache name) :
    w.Fades [write] { w with entries := replace w.entries cache table } := by
  intro serial dead other name
  rw [List.forall_mem_singleton]
  by_cases same : other = cache
  · subst same
    simp only [Names, replace_self]
    exact here serial dead name
  · simp only [Names, replace_of_ne _ _ same]
    exact (and_iff_left (elsewhere other name same)).symm

theorem fades_publish (cache : CacheId) (name : Name) {artifact : Artifact}
    (live : artifact.serial ∈ w.held) :
    w.Fades [.publish cache] (w.publish cache name artifact).2 := by
  refine fades_replace (fun other _ different ends => different ends.symm) ?_
  intro serial dead other
  refine iff_of_false ?_ fun named => named.2 rfl
  rintro ⟨found, entry, rfl⟩
  rw [Table.get?_insert, Table.get?_filter] at entry
  split at entry
  · cases entry
    exact dead.2 live
  · exact dead.2 (World.alive_iff.mp (Option.filter_eq_some_iff.mp entry).2)

theorem fades_invalidate (w : World) (cache : CacheId) (name : Name) :
    w.Fades [.invalidate cache name] (w.invalidate cache name).2 := by
  refine fades_replace (fun other _ different ends => different ends.1.symm) ?_
  intro serial _ other
  rw [Table.get?_erase]
  by_cases same : other = name
  · rw [if_pos same]
    refine iff_of_false ?_ fun named => named.2 ⟨rfl, same.symm⟩
    rintro ⟨found, entry, -⟩
    cases entry
  · rw [if_neg same]
    exact (and_iff_left fun ends => same ends.2.symm).symm

theorem fades_clear (w : World) (cache : CacheId) : w.Fades [.clear cache] (w.clear cache) := by
  refine fades_replace (fun other _ different ends => different ends.symm) ?_
  intro serial _ other
  refine iff_of_false ?_ fun named => named.2 rfl
  rintro ⟨found, entry, -⟩
  cases entry

/-! #### The entries of one artifact -/

/-- A dead artifact has an entry under a name: what has become of that after some writes. -/
structure Fading (cache : CacheId) (name : Name) (artifact : Artifact) (since : List Write)
    (w w' : World) : Prop where
  dead : ¬w'.alive artifact
  /-- The entry is seen, but does not answer, until a write ends it. -/
  stays : (∀ write ∈ since, ¬write.Ends cache name) →
    w'.contains cache name ∧ w'.Names cache name artifact.serial ∧ (w'.lookup cache name).1 = none
  /-- Then the name has no entry of the artifact any more, and another one has only what it had. -/
  gone : (∃ write ∈ since, write.Ends cache name) → ∀ other,
    w'.Names cache other artifact.serial → other ≠ name ∧ w.Names cache other artifact.serial
  /-- After a write that sweeps, no name has. -/
  swept : (∃ write ∈ since, write.Sweeps cache) → ∀ other, ¬w'.Names cache other artifact.serial

theorem lookup_of_dead {cache : CacheId} {name : Name} {serial : Nat} (dead : serial ∉ w.held)
    (named : w.Names cache name serial) :
    w.contains cache name ∧ (w.lookup cache name).1 = none := by
  obtain ⟨found, entry, rfl⟩ := named
  refine ⟨?_, ?_⟩
  · rw [World.contains, Table.contains, entry]
    rfl
  · rw [w.lookup_eq, entry, Option.filter_eq_none_iff]
    rintro _ ⟨⟩ live
    exact dead (World.alive_iff.mp live)

theorem Fades.fading {cache : CacheId} {name : Name} {artifact : Artifact} {since : List Write}
    (fades : w.Fades since w') (buries : w.Buries w') (dead : w.Dead artifact.serial)
    (entry : (w.entries cache).get? name = some artifact) :
    Fading cache name artifact since w w' where
  dead live := (buries.dead dead).2 (World.alive_iff.mp live)
  stays spared := by
    have named := (fades _ dead cache name).mpr ⟨⟨artifact, entry, rfl⟩, spared⟩
    obtain ⟨seen, silent⟩ := lookup_of_dead (buries.dead dead).2 named
    exact ⟨seen, named, silent⟩
  gone := by
    rintro ⟨write, listed, ends⟩ other named
    obtain ⟨before, spared⟩ := (fades _ dead cache other).mp named
    refine ⟨?_, before⟩
    rintro rfl
    exact spared write listed ends
  swept := by
    rintro ⟨write, listed, sweeps⟩ other named
    exact ((fades _ dead cache other).mp named).2 write listed (sweeps.ends other)

end World

/-! ### What every deal keeps -/

namespace Ledger

variable {ledger ledger' : Ledger} {refs refs' more : Multiset Ref} {writes : List Write}
  {w w' : World}

/-- The references of a ledger, with some more, are all strong references. Nothing is held or
    published that was not created. -/
structure Counts (ledger : Ledger) (more : Multiset Ref) (w : World) : Prop where
  heldBy : w.HeldBy (ledger.refs + more)
  bounded : ∀ serial ∈ w.held, serial ≤ w.created
  grounded : w.Grounded

/-- It does not matter to whom a reference belongs. -/
theorem Counts.regroup {more' : Multiset Ref} (counts : ledger.Counts more w)
    (same : ledger'.refs + more' = ledger.refs + more) : ledger'.Counts more' w :=
  ⟨by rw [same]; exact counts.heldBy, counts.bounded, counts.grounded⟩

/-- What may have happened between two states with their ledgers. -/
structure Succeeds (ledger : Ledger) (w : World) (ledger' : Ledger) (w' : World) : Prop where
  buries : w.Buries w'
  fades : ∃ since, ledger'.writes = since ++ ledger.writes ∧ w.Fades since w'

theorem Succeeds.refl (ledger : Ledger) (w : World) : ledger.Succeeds w ledger w :=
  ⟨.refl w, [], rfl, .of_entries rfl⟩

theorem Succeeds.trans {ledger₁ : Ledger} {w₁ : World} (first : ledger.Succeeds w ledger₁ w₁)
    (second : ledger₁.Succeeds w₁ ledger' w') : ledger.Succeeds w ledger' w' where
  buries := first.buries.trans second.buries
  fades := by
    obtain ⟨earlier, before, fades⟩ := first.fades
    obtain ⟨later, after, fading⟩ := second.fades
    refine ⟨later ++ earlier, ?_, fades.trans first.buries fading⟩
    rw [after, before, List.append_assoc]

/-- A ledger that counts all, after another one. -/
structure Passed (ledger : Ledger) (more : Multiset Ref) (w : World) (ledger' : Ledger)
    (w' : World) : Prop where
  counts : ledger'.Counts more w'
  succeeds : ledger.Succeeds w ledger' w'

theorem Counts.bounded_of_buries (counts : ledger.Counts more w) (buries : w.Buries w') :
    ∀ serial ∈ w'.held, serial ≤ w'.created := by
  intro serial there
  rcases buries.held serial there with before | ⟨-, created⟩
  · exact Nat.le_trans (counts.bounded serial before) buries.created
  · exact created

/-- References changed hands, and no entry was written. -/
private theorem Counts.handover (counts : Counts ⟨refs, writes⟩ more w)
    (handover : w.Handover (refs' + more) w') :
    Passed ⟨refs, writes⟩ more w ⟨refs', writes⟩ w' where
  counts := by
    refine ⟨handover.heldBy, counts.bounded_of_buries handover.buries, ?_⟩
    intro cache name artifact entry
    rw [handover.entries] at entry
    exact Nat.le_trans (counts.grounded cache name artifact entry) handover.buries.created
  succeeds := ⟨handover.buries, [], rfl, .of_entries handover.entries⟩

/-- An entry was written, and no reference changed hands. -/
private theorem Counts.write {write : Write} {entries : CacheId → Table Name Artifact}
    (counts : Counts ⟨refs, writes⟩ more w)
    (grounded : World.Grounded { w with entries })
    (fades : w.Fades [write] { w with entries }) :
    Passed ⟨refs, writes⟩ more w ⟨refs, write :: writes⟩ { w with entries } where
  counts := by
    obtain ⟨held, contexts, kept, made⟩ := counts.heldBy
    exact ⟨⟨held, contexts, kept, made⟩, counts.bounded, grounded⟩
  succeeds := ⟨.of_subset rfl fun _ there => there, [write], rfl, fades⟩

end Ledger

/-! #### All deals -/

/-- No deal leaves a reference uncounted, whatever references there are besides. -/
theorem Deal.passed {ledger ledger' : Ledger} {w w' : World} (deal : Deal ledger w ledger' w')
    {more : Multiset Ref} (counts : ledger.Counts more w) : ledger.Passed more w ledger' w' := by
  have heldBy := counts.heldBy
  induction deal with
  | aside frame =>
    refine counts.handover (heldBy.aside ?_ ?_ ?_ ?_ ?_ ?_) <;> rw [frame]
  | create name imageSize payload =>
    refine counts.handover ?_
    rw [Multiset.cons_add]
    exact heldBy.create name imageSize payload
  | hold plain holding =>
    refine counts.handover ?_
    rw [Multiset.cons_add]
    exact heldBy.retain plain (holding.add more)
  | @share refs _ _ context own =>
    refine counts.handover ?_
    have listed : (.context context : Ref) ∈ refs + more := Multiset.mem_add.mpr (.inl own)
    rw [Multiset.cons_add]
    refine heldBy.keep ?_ fun artifact has => ⟨_, listed, has⟩
    refine heldBy.made _ ?_
    rw [← Multiset.mem_coe, heldBy.contexts, Multiset.mem_bind]
    exact ⟨_, listed, Multiset.mem_singleton_self _⟩
  | drop ref =>
    refine counts.handover ?_
    rw [Multiset.cons_add] at heldBy
    exact heldBy.drop
  | link units artifact =>
    refine counts.handover ⟨?_, .refl _, rfl⟩
    rw [Multiset.cons_add, Multiset.cons_add] at heldBy
    rw [add_assoc, Multiset.cons_add]
    exact heldBy.link
  | freeze units =>
    refine counts.handover ⟨?_, .refl _, rfl⟩
    rw [Multiset.cons_add] at heldBy ⊢
    exact heldBy.exchange (by rw [Multiset.cons_bind, Multiset.cons_bind]; rfl)
      (by rw [Multiset.cons_bind, Multiset.cons_bind]; rfl)
  | lookup cache name =>
    refine counts.handover ?_
    rw [add_assoc]
    exact heldBy.lookup cache name
  | resolve resolver holding thread name =>
    refine counts.handover ?_
    rw [add_assoc]
    exact heldBy.resolve resolver (holding.add more) thread name
  | instantiate api image parent holding =>
    refine counts.handover ?_
    rw [add_assoc]
    exact heldBy.instantiate api image parent (holding.add more)
  | load own thread name =>
    refine counts.handover ?_
    rw [add_assoc]
    exact heldBy.load (Multiset.mem_add.mpr (.inl own)) thread name
  | @publish _ _ w cache name artifact holding =>
    have live : artifact.serial ∈ w.held :=
      heldBy.mem_held (holding.add more) (List.mem_singleton_self artifact)
    exact counts.write (counts.grounded.publish cache name (counts.bounded _ live))
      (World.fades_publish cache name live)
  | invalidate cache name =>
    exact counts.write (counts.grounded.invalidate cache name) (World.fades_invalidate _ cache name)
  | clear cache =>
    exact counts.write ((World.foreign_clear _ cache).grounded counts.grounded)
      (World.fades_clear _ cache)
  | both _ _ ih₁ ih₂ =>
    have first := ih₁ counts heldBy
    have second := ih₂ first.counts first.counts.heldBy
    exact ⟨second.counts, first.succeeds.trans second.succeeds⟩

end Reload
