import Prebuilt.Catalog.BuiltIn
import Prebuilt.Proofs.Flattening
import Prebuilt.Proofs.Pieces

/-! Short ids across a whole catalog. Where no platform and no architecture holds a dash, the first
two dashes of a short id show where its parts end, so that it tells its build from any other. -/

namespace Prebuilt

namespace TargetKey

/-- An interface may hold dashes, since nothing stands behind it. -/
structure DashFree (k : TargetKey) : Prop where
  platform : '-' ∉ k.platform.toList
  arch : '-' ∉ k.arch.toList

variable {k k' : TargetKey}

/-- Cut at its dashes a short id is the platform, the architecture and the pieces of the
interface. -/
theorem DashFree.splitOn_shortId (h : k.DashFree) :
    k.shortId.toList.splitOn '-' = k.platform.toList :: k.arch.toList ::
      (k.abi.map fun abi => abi.toList.splitOn '-').getD [] := by
  rw [shortId]
  cases k.abi with
  | none =>
    have hid : (k.platform ++ "-" ++ k.arch).toList =
        k.platform.toList ++ '-' :: k.arch.toList := by
      simp
    rw [hid, List.splitOn_append_cons_self_of_not_mem h.platform,
      List.splitOn_eq_singleton h.arch]
    rfl
  | some abi =>
    have hid : (k.platform ++ "-" ++ k.arch ++ "-" ++ abi).toList =
        k.platform.toList ++ '-' :: (k.arch.toList ++ '-' :: abi.toList) := by
      simp
    rw [hid, List.splitOn_append_cons_self_of_not_mem h.platform,
      List.splitOn_append_cons_self_of_not_mem h.arch]
    rfl

theorem abi_eq_of_pieces {abi abi' : Option String}
    (h : (abi.map fun s => s.toList.splitOn '-').getD [] =
      (abi'.map fun s => s.toList.splitOn '-').getD []) : abi = abi' := by
  cases abi with
  | none =>
    cases abi' with
    | none => rfl
    | some s' => exact absurd h.symm (List.splitOn_ne_nil _ _)
  | some s =>
    cases abi' with
    | none => exact absurd h (List.splitOn_ne_nil _ _)
    | some s' => exact congrArg some (String.toList_inj.mp (splitOn_injective '-' h))

theorem DashFree.eq_of_shortId (h : k.DashFree) (h' : k'.DashFree) (he : k.shortId = k'.shortId) :
    k = k' := by
  have hcut := h.splitOn_shortId
  rw [he, h'.splitOn_shortId, List.cons.injEq, List.cons.injEq] at hcut
  obtain ⟨hplatform, harch, habi⟩ := hcut
  cases k
  cases k'
  rw [mk.injEq]
  exact ⟨(String.toList_inj.mp hplatform).symm, (String.toList_inj.mp harch).symm,
    (abi_eq_of_pieces habi).symm⟩

end TargetKey

/-- In a table without dashes in its platforms and architectures a short id names one build, and
looking it up gives that build with all its names. -/
theorem shortId_names_one_build (rows : List Triple)
    (hdash : ∀ r ∈ rows, '-' ∉ r.platform.toList ∧ '-' ∉ r.arch.toList) :
    let c := Catalog.ofTriples rows
    (∀ t ∈ c.targets, ∀ u ∈ c.targets, t.shortId = u.shortId ↔
      t.platform = u.platform ∧ t.arch = u.arch ∧ t.abi = u.abi) ∧
    (∀ t ∈ c.targets, c.findShortId? t.shortId = some t) ∧
    ∀ id, (∀ t ∈ c.targets, t.shortId ≠ id) → c.findShortId? id = none := by
  dsimp only
  rw [ofTriples_eq_grouped]
  have hfree : ∀ t ∈ (grouped rows).targets, t.key.DashFree := by
    intro t ht
    obtain ⟨⟨r, hr, hk⟩, -⟩ := mem_targets_iff.mp ht
    rw [← hk]
    exact ⟨(hdash r hr).1, (hdash r hr).2⟩
  refine ⟨fun t ht u hu => ?_, fun t ht => ?_, fun id hid => ?_⟩
  · constructor
    · intro he
      exact Target.key_eq_iff.mp ((hfree t ht).eq_of_shortId (hfree u hu) he)
    · intro he
      have hk : t.key = u.key := Target.key_eq_iff.mpr he
      rw [Target.shortId, hk, Target.shortId]
  · obtain ⟨u, hu⟩ : ∃ u, (grouped rows).findShortId? t.shortId = some u :=
      Option.isSome_iff_exists.mp (List.find?_isSome.mpr ⟨t, ht, beq_self_eq_true _⟩)
    rw [hu]
    rw [Catalog.findShortId?] at hu
    have hmem := List.mem_of_find?_eq_some hu
    have hid : u.shortId = t.shortId := by simpa using List.find?_some hu
    rw [eq_of_key_eq hmem ht ((hfree u hmem).eq_of_shortId (hfree t ht) hid)]
  · exact List.find?_eq_none.mpr fun t ht he => hid t ht (eq_of_beq he)

/-- The targets known without being told have no dashes there. -/
theorem builtIn_shortIds_are_names :
    (∀ r ∈ builtInTriples, '-' ∉ r.platform.toList ∧ '-' ∉ r.arch.toList) ∧
    (∀ t ∈ Catalog.builtIn.targets, ∀ u ∈ Catalog.builtIn.targets, t.shortId = u.shortId ↔
      t.platform = u.platform ∧ t.arch = u.arch ∧ t.abi = u.abi) ∧
    (∀ t ∈ Catalog.builtIn.targets, Catalog.builtIn.findShortId? t.shortId = some t) ∧
    ∀ id, (∀ t ∈ Catalog.builtIn.targets, t.shortId ≠ id) →
      Catalog.builtIn.findShortId? id = none := by
  have hdash : ∀ r ∈ builtInTriples, '-' ∉ r.platform.toList ∧ '-' ∉ r.arch.toList := by
    decide +kernel
  exact ⟨hdash, shortId_names_one_build builtInTriples hdash⟩

end Prebuilt
