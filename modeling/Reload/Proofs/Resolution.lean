import Reload.Resolver

/-!
What a resolution does to the state. It counts and records, and it adds at most one strong
reference: to the artifact that answers, which is live already or is held by the resolver.
-/

namespace Reload

namespace World

/-! ### Holding many artifacts -/

theorem alive_iff {w : World} {artifact : Artifact} :
    w.alive artifact ↔ artifact.serial ∈ w.held := by
  simp [alive]

/-- Retaining artifacts changes the references, and nothing else. -/
theorem retainAll_eq (w : World) (artifacts : List Artifact) :
    w.retainAll artifacts = { w with held := (artifacts.map Artifact.serial).reverse ++ w.held } := by
  induction artifacts generalizing w with
  | nil => rfl
  | cons first rest ih =>
    refine (ih (w.retain first)).trans ?_
    simp [retain]

theorem releaseAll_eq (w : World) (artifacts : List Artifact) :
    w.releaseAll artifacts = { w with held := (w.releaseAll artifacts).held } := by
  induction artifacts generalizing w with
  | nil => rfl
  | cons first rest ih => exact ih (w.release first)

theorem alive_retainAll {w : World} {artifacts : List Artifact} {artifact : Artifact} :
    (w.retainAll artifacts).alive artifact ↔
      artifact.serial ∈ artifacts.map Artifact.serial ∨ w.alive artifact := by
  rw [retainAll_eq]
  simp [alive_iff]

theorem alive_of_alive_release {w : World} {released artifact : Artifact}
    (live : (w.release released).alive artifact) : w.alive artifact :=
  alive_iff.mpr (List.mem_of_mem_erase (alive_iff.mp live))

theorem alive_of_alive_releaseAll {w : World} {artifacts : List Artifact} {artifact : Artifact}
    (live : (w.releaseAll artifacts).alive artifact) : w.alive artifact := by
  induction artifacts generalizing w with
  | nil => exact live
  | cons first rest ih => exact alive_of_alive_release (ih live)

/-- Releasing artifacts takes one reference away for each time that an artifact is among them. -/
theorem count_releaseAll (artifacts : List Artifact) (serial : Nat) (w : World) :
    (w.releaseAll artifacts).held.count serial =
      w.held.count serial - (artifacts.map Artifact.serial).count serial := by
  induction artifacts generalizing w with
  | nil => rfl
  | cons first rest ih =>
    refine (ih (w.release first)).trans ?_
    simp only [release, List.count_erase, List.map_cons, List.count_cons]
    omega

/-- The live artifact under a name is the entry of the name, if that is live. -/
theorem lookup_eq (w : World) (cache : CacheId) (name : Name) :
    (w.lookup cache name).1 = ((w.entries cache).get? name).filter w.alive := by
  unfold lookup
  cases (w.entries cache).get? name with
  | none => rfl
  | some artifact => cases live : w.alive artifact <;> simp [live, Option.filter]

/-- Looking a name up adds a reference to the artifact that is found, and does nothing else. -/
theorem lookup_world (w : World) (cache : CacheId) (name : Name) :
    (w.lookup cache name).2 =
      match (w.lookup cache name).1 with
      | some artifact => w.retain artifact
      | none => w := by
  unfold lookup
  cases (w.entries cache).get? name with
  | none => rfl
  | some artifact => cases live : w.alive artifact <;> simp [live]

end World

namespace Resolver

/-! ### One resolution -/

/-- How a resolution may leave the state, if the resolver holds these artifacts. -/
structure Answered (name : Name) (artifacts : List Artifact) (w : World)
    (answer : Except NotFound Artifact × World) : Prop where
  /-- Only references, counters and the journal change. -/
  frame : answer.2 = { w with
    held := answer.2.held, counters := answer.2.counters, journal := answer.2.journal }
  held : ∀ artifact, answer.1 = .ok artifact → answer.2.held = artifact.serial :: w.held
  source : ∀ artifact, answer.1 = .ok artifact →
    (∃ cache, (w.entries cache).get? name = some artifact ∧ w.alive artifact) ∨
      artifact ∈ artifacts
  refused : ∀ missing, answer.1 = .error missing → missing = ⟨name⟩ ∧ answer.2.held = w.held

private theorem Answered.miss {name : Name} {artifacts : List Artifact} {w : World} :
    Answered name artifacts w (.error ⟨name⟩, w) :=
  ⟨rfl, by simp, by simp, by simp⟩

private theorem Answered.after {name : Name} {artifacts more : List Artifact} {w w₁ : World}
    {answer : Except NotFound Artifact × World} (answered : Answered name artifacts w₁ answer)
    (same : w₁ = { w with counters := w₁.counters, journal := w₁.journal })
    (holds : ∀ artifact ∈ artifacts, artifact ∈ more) : Answered name more w answer where
  frame := by
    rw [answered.frame, same]
  held artifact ok := by
    rw [answered.held artifact ok, same]
  source artifact ok := by
    rcases answered.source artifact ok with ⟨cache, entry, live⟩ | listed
    · rw [same] at entry live
      exact .inl ⟨cache, entry, live⟩
    · exact .inr (holds artifact listed)
  refused missing error := by
    obtain ⟨named, kept⟩ := answered.refused missing error
    exact ⟨named, by rw [kept, same]⟩

private theorem Answered.world_of_error {name : Name} {artifacts : List Artifact} {w : World}
    {answer : Except NotFound Artifact × World} (answered : Answered name artifacts w answer)
    {missing : NotFound} (error : answer.1 = .error missing) :
    answer.2 = { w with counters := answer.2.counters, journal := answer.2.journal } := by
  obtain ⟨-, kept⟩ := answered.refused missing error
  have frame := answered.frame
  rw [kept] at frame
  exact frame

/-- A guarded tree refuses, or answers from its cache, or asks on. -/
private theorem answered_guarded {thread : ThreadId} {name : Name} {cache : CacheId}
    {counters : CountersId} {artifacts : List Artifact} {w : World}
    {next : World → Except NotFound Artifact × World}
    (asks : Answered name artifacts w (next w)) :
    Answered name artifacts w
      (if w.marker thread = some name then (.error ⟨name⟩, Tree.refuse counters name w)
        else
          match w.lookup cache name with
          | (some artifact, w) => (.ok artifact, w.count counters .cacheHits 1)
          | (.none, w) => next w) := by
  by_cases marked : w.marker thread = some name
  · rw [if_pos marked]
    exact Answered.after .miss rfl fun _ listed => listed
  rw [if_neg marked]
  have found := w.lookup_eq cache name
  have world := w.lookup_world cache name
  rcases look : w.lookup cache name with ⟨_ | artifact, w'⟩
  · rw [look] at world
    obtain rfl : w' = w := world
    exact asks
  · rw [look] at found world
    obtain rfl : w' = w.retain artifact := world
    obtain ⟨entry, live⟩ := Option.filter_eq_some_iff.mp found.symm
    refine ⟨rfl, ?_, ?_, by simp⟩
    · rintro _ ⟨⟩
      rfl
    · rintro _ ⟨⟩
      exact .inl ⟨cache, entry, live⟩

mutual

private theorem answered_tree (thread : ThreadId) (name : Name) (tree : Tree) (w : World) :
    Answered name tree.artifacts w (tree.resolve thread name w) := by
  match tree with
  | .linked units =>
    unfold Tree.resolve
    cases found : units.get? name with
    | none => exact .miss
    | some artifact =>
      refine ⟨rfl, ?_, ?_, by simp⟩
      · rintro _ ⟨⟩
        rfl
      · rintro _ ⟨⟩
        have listed := List.mem_map_of_mem (f := Prod.snd) (Table.mem_entries_iff.mpr found)
        exact .inr (by simpa [Tree.artifacts, Table.values] using listed)
  | .chain links =>
    unfold Tree.resolve Tree.artifacts
    exact (answered_links thread name links w).after rfl (by simp)
  | .guarded cache .none counters =>
    unfold Tree.resolve
    exact answered_guarded .miss
  | .guarded cache (some ancestor) counters =>
    unfold Tree.resolve Tree.artifacts
    exact answered_guarded (answered_tree thread name ancestor w)

private theorem answered_links (thread : ThreadId) (name : Name) (links : List Tree) (w : World) :
    Answered name (Tree.artifactsOfLinks links) w (Tree.resolveLinks thread name links w) := by
  match links with
  | [] =>
    unfold Tree.resolveLinks
    exact .miss
  | first :: rest =>
    unfold Tree.resolveLinks Tree.artifactsOfLinks
    have asked := answered_tree thread name first w
    rcases answer : first.resolve thread name w with ⟨_ | artifact, w'⟩
    · rw [answer] at asked
      have later := answered_links thread name rest w'
      exact later.after (asked.world_of_error rfl) (by simp +contextual)
    · rw [answer] at asked
      exact asked.after rfl (by simp +contextual)

end

theorem answered (resolver : Resolver) (thread : ThreadId) (name : Name) (w : World) :
    Answered name resolver.artifacts w (resolver.resolve thread name w) := by
  rw [resolver.artifacts_eq]
  exact answered_tree thread name resolver.tree w

/-- What a guarded resolver answers: nothing for the name that the thread is defining, and else what
    its cache has, or what its ancestor answers. -/
theorem resolve_guarded (cache : CacheId) (ancestor : Option Resolver) (counters : CountersId)
    (thread : ThreadId) (name : Name) (w : World) :
    (guarded cache ancestor counters).resolve thread name w =
      if w.marker thread = some name then (.error ⟨name⟩, Tree.refuse counters name w)
      else
        match w.lookup cache name with
        | (some artifact, w) => (.ok artifact, w.count counters .cacheHits 1)
        | (.none, w) =>
          match ancestor with
          | some ancestor => ancestor.resolve thread name w
          | .none => (.error ⟨name⟩, w) := by
  cases ancestor with
  | none => exact Tree.resolve.eq_def thread name (.guarded cache .none counters) w
  | some ancestor =>
    exact Tree.resolve.eq_def thread name (.guarded cache (some ancestor.tree) counters) w

/-- A resolution brings no artifact back to life, besides those that the resolver holds. -/
theorem Answered.alive {name : Name} {artifacts : List Artifact} {w : World}
    {answer : Except NotFound Artifact × World} (answered : Answered name artifacts w answer)
    {artifact : Artifact} (live : answer.2.alive artifact)
    (unheld : artifact.serial ∉ artifacts.map Artifact.serial) : w.alive artifact := by
  rw [World.alive_iff] at live ⊢
  rcases result : answer.1 with missing | found
  · rwa [(answered.refused missing result).2] at live
  · rw [answered.held found result] at live
    rcases List.mem_cons.mp live with same | before
    · rcases answered.source found result with ⟨_, _, found_live⟩ | listed
      · rw [same]
        exact World.alive_iff.mp found_live
      · exact absurd (same ▸ List.mem_map_of_mem listed) unheld
    · exact before

end Resolver

end Reload
