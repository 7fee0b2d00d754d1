import Prebuilt.Host.Fixed
import Prebuilt.Proofs.Above
import Prebuilt.Proofs.Candidates
import Prebuilt.Proofs.Flattening
import Prebuilt.Proofs.Walk

/-! No place is listed twice among the candidates of a search. Whatever the directory, the stem and
the ending add or take away, the short id stays inside one component that is a name, and all else
is the same for every build. -/

namespace Prebuilt

namespace Path

section Middle

variable {piece : Segment} {front rest : List Segment} {p : Path}

theorem isBlank_of_dash_mem {s : Segment} (h : '-' ∈ s) : isBlank s = false := by
  have hnil : s ≠ [] := fun he => by simp [he] at h
  have hdot : s ≠ ['.'] := fun he => by simp [he] at h
  simp [isBlank, hnil, hdot]

end Middle

end Path

section Attempts

variable {s : Search} {platform : String} {t u : Target}

theorem slashFree_of_mem_targetsOf {rows : List Triple} (hslash : ∀ r ∈ rows, r.key.SlashFree)
    {p a : String} (ht : t ∈ targetsOf rows p a) : t.key.SlashFree := by
  rw [← filter_targets_pair] at ht
  obtain ⟨⟨r, hr, hk⟩, -⟩ := mem_targets_iff.mp (List.mem_filter.mp ht).1
  exact hk ▸ hslash r hr

end Attempts

end Prebuilt
