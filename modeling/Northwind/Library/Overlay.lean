import Mathlib.Data.Set.Lattice
import Mathlib.Order.Basic

/-!
# A base overridden by any record laid over it

The versions of one key are split into a base and an overlay.  A reader that
finds anything in the overlay serves its newest record and ignores the base; it
never compares the two sides.  This module says when that reader serves the
newest record ever published, and which updates keep it so.

The records here are those of a single key, so the key does not appear.

`Overlay.Faithful` is the invariant.  `Overlay.Faithful.publish` lays newer
records over the store, `Overlay.Faithful.merge` replaces the base by one that
holds every newest record, and `Overlay.Faithful.drop` takes records out of the
overlay.  Dropping is the delicate one: a dropped record must leave a record at
least as new behind, or an empty overlay.

A second reader may rank base and overlay together, by another version.
`Aligned` says of a set of records that the two versions order it the same way
and that the base comes first; then the readers serve the same record
(`Aligned.served_iff_newest`), whichever of the records are laid over the base.
-/

namespace Northwind
namespace Overlay

universe u w

variable {ρ : Type u} {ν : Type w} [LinearOrder ν] (ver : ρ → ν)

/-- `r` is a greatest record of `records`. -/
def Newest (records : Set ρ) (r : ρ) : Prop :=
  r ∈ records ∧ ∀ r' ∈ records, ver r' ≤ ver r

/-- The records a reader may serve: anything overlaid hides the base. -/
def Served (base overlay : Set ρ) (r : ρ) : Prop :=
  (r ∈ base ∧ ¬ overlay.Nonempty) ∨ Newest ver overlay r

/-- The split still answers for everything published. -/
structure Faithful (published base overlay : Set ρ) : Prop where
  base_published : base ⊆ published
  overlay_published : overlay ⊆ published
  newest_stored : ∀ r, Newest ver published r → r ∈ base ∪ overlay
  superseded : ∀ b ∈ base, overlay.Nonempty → ∃ d ∈ overlay, ver b ≤ ver d

variable {ver}
variable {published base overlay : Set ρ}

/-- With one record per version there is one newest record. -/
theorem Newest.unique
    (hinj : Set.InjOn ver published) {r r' : ρ}
    (hr : Newest ver published r) (hr' : Newest ver published r') :
    r = r' :=
  hinj hr.1 hr'.1 (le_antisymm (hr'.2 r hr.1) (hr.2 r' hr'.1))

namespace Faithful

/-- A nonempty overlay holds the newest record. -/
theorem newest_mem_overlay
    (h : Faithful ver published base overlay) (hinj : Set.InjOn ver published)
    (hne : overlay.Nonempty) {r : ρ} (hr : Newest ver published r) :
    r ∈ overlay := by
  rcases h.newest_stored r hr with hb | ho
  · obtain ⟨d, hd, hle⟩ := h.superseded r hb hne
    have hmem := h.overlay_published hd
    have heq : r = d := hinj hr.1 hmem (le_antisymm hle (hr.2 d hmem))
    rw [heq]
    exact hd
  · exact ho

/-- A split is faithful when its nonempty overlay holds the newest record and an
empty one leaves it to the base. -/
theorem of_newest_mem
    (hbase : base ⊆ published) (hoverlay : overlay ⊆ published)
    (hexists : published.Nonempty → ∃ r, Newest ver published r)
    (hstored : ∀ r, Newest ver published r → r ∈ base ∪ overlay)
    (hfront : overlay.Nonempty → ∀ r, Newest ver published r → r ∈ overlay) :
    Faithful ver published base overlay where
  base_published := hbase
  overlay_published := hoverlay
  newest_stored := hstored
  superseded := by
    intro b hb hne
    obtain ⟨top, htop⟩ := hexists ⟨b, hbase hb⟩
    exact ⟨top, hfront hne top htop, htop.2 b (hbase hb)⟩

/-- What a reader serves is the newest record published, provided the base has
one record. -/
theorem newest_of_served
    (h : Faithful ver published base overlay)
    (hinj : Set.InjOn ver published) (hone : base.Subsingleton)
    (hexists : published.Nonempty → ∃ r, Newest ver published r)
    {r : ρ} (hr : Served ver base overlay r) :
    Newest ver published r := by
  rcases hr with ⟨hbase, hempty⟩ | hnew
  · obtain ⟨top, htop⟩ := hexists ⟨r, h.base_published hbase⟩
    rcases h.newest_stored top htop with htb | hto
    · rw [hone hbase htb]
      exact htop
    · exact absurd ⟨top, hto⟩ hempty
  · have hmem := h.overlay_published hnew.1
    obtain ⟨top, htop⟩ := hexists ⟨r, hmem⟩
    have hto := h.newest_mem_overlay hinj ⟨r, hnew.1⟩ htop
    have heq : r = top := hinj hmem htop.1
      (le_antisymm (htop.2 r hmem) (hnew.2 top hto))
    rw [heq]
    exact htop

/-- Where the store has everything, only what is laid over the base matters. -/
theorem of_superseded
    (h : ∀ b ∈ base, overlay.Nonempty → ∃ d ∈ overlay, ver b ≤ ver d) :
    Faithful ver (base ∪ overlay) base overlay where
  base_published := Set.subset_union_left
  overlay_published := Set.subset_union_right
  newest_stored := fun _ hr => hr.1
  superseded := h

/-- Laying newer records over the store. -/
theorem publish
    (h : Faithful ver published base overlay) {fresh : Set ρ}
    (hnewer : ∀ r ∈ fresh, ∀ r' ∈ published, ver r' < ver r) :
    Faithful ver (published ∪ fresh) base (overlay ∪ fresh) where
  base_published := h.base_published.trans Set.subset_union_left
  overlay_published := Set.union_subset_union_left fresh h.overlay_published
  newest_stored := by
    intro r hr
    rcases hr.1 with hold | hfresh
    · have hnew : Newest ver published r :=
        ⟨hold, fun r' hr' => hr.2 r' (Or.inl hr')⟩
      rcases h.newest_stored r hnew with hb | ho
      · exact Or.inl hb
      · exact Or.inr (Or.inl ho)
    · exact Or.inr (Or.inr hfresh)
  superseded := by
    rintro b hb ⟨d, hd | hd⟩
    · obtain ⟨d', hd', hle⟩ := h.superseded b hb ⟨d, hd⟩
      exact ⟨d', Or.inl hd', hle⟩
    · exact ⟨d, Or.inr hd, (hnewer d hd b (h.base_published hb)).le⟩

/-- A new base drawn from the store that keeps the newest record of the old
one.  Old base records may turn into overlaid ones. -/
theorem merge
    (h : Faithful ver published base overlay) (hone : base.Subsingleton)
    {base' overlay' : Set ρ}
    (hdrawn : base' ⊆ base ∪ overlay)
    (hkeeps : ∀ r ∈ base, Newest ver published r → r ∈ base')
    (hsub : overlay ⊆ overlay') (hsub' : overlay' ⊆ base ∪ overlay) :
    Faithful ver published base' overlay' where
  base_published := hdrawn.trans (Set.union_subset h.base_published h.overlay_published)
  overlay_published := hsub'.trans (Set.union_subset h.base_published h.overlay_published)
  newest_stored := by
    intro r hr
    rcases h.newest_stored r hr with hb | ho
    · exact Or.inl (hkeeps r hb hr)
    · exact Or.inr (hsub ho)
  superseded := by
    rintro b hb ⟨d, hd⟩
    rcases hdrawn hb with hbase | hover
    · rcases hsub' hd with hdbase | hdover
      · rw [hone hbase hdbase]
        exact ⟨d, hd, le_rfl⟩
      · obtain ⟨d', hd', hle⟩ := h.superseded b hbase ⟨d, hdover⟩
        exact ⟨d', hsub hd', hle⟩
    · exact ⟨b, hsub hover, le_rfl⟩

/-- Taking records out of the overlay: the base covers each of them, and what
is left, if anything, holds one at least as new. -/
theorem drop
    (h : Faithful ver published base overlay) (hinj : Set.InjOn ver published)
    {overlay' : Set ρ} (hsub : overlay' ⊆ overlay)
    (hcovered : ∀ r ∈ overlay, r ∉ overlay' → ∃ b ∈ base, ver r ≤ ver b)
    (hsafe : ∀ r ∈ overlay, r ∉ overlay' → overlay'.Nonempty →
      ∃ d ∈ overlay', ver r ≤ ver d) :
    Faithful ver published base overlay' where
  base_published := h.base_published
  overlay_published := hsub.trans h.overlay_published
  newest_stored := by
    intro r hr
    rcases h.newest_stored r hr with hb | ho
    · exact Or.inl hb
    · by_cases hkept : r ∈ overlay'
      · exact Or.inr hkept
      · obtain ⟨b, hb, hle⟩ := hcovered r ho hkept
        have heq : r = b := hinj hr.1 (h.base_published hb)
          (le_antisymm hle (hr.2 b (h.base_published hb)))
        rw [heq]
        exact Or.inl hb
  superseded := by
    rintro b hb ⟨d, hd⟩
    obtain ⟨d', hd', hle⟩ := h.superseded b hb ⟨d, hsub hd⟩
    by_cases hkept : d' ∈ overlay'
    · exact ⟨d', hkept, hle⟩
    · obtain ⟨d'', hd'', hle'⟩ := hsafe d' hd' hkept ⟨d, hd⟩
      exact ⟨d'', hd'', hle.trans hle'⟩

end Faithful

/-! ## A reader that ranks base and overlay together -/

section TwoReaders

universe x

variable {ν' : Type x} [LinearOrder ν'] (ver : ρ → ν) (ver' : ρ → ν')

/-- `r'` is newer than `r` by both versions. -/
def NewerByBoth (r r' : ρ) : Prop :=
  ver r < ver r' ∧ ver' r < ver' r'

instance (r r' : ρ) : Decidable (NewerByBoth ver ver' r r') :=
  inferInstanceAs (Decidable (ver r < ver r' ∧ ver' r < ver' r'))

/-- The two versions order the records the same way, and the base comes first. -/
structure Aligned (base records : Set ρ) : Prop where
  one_base : base.Subsingleton
  base_first : ∀ b ∈ base, ∀ r ∈ records, b = r ∨ NewerByBoth ver ver' b r
  ordered : ∀ r ∈ records, ∀ r' ∈ records,
    r = r' ∨ NewerByBoth ver ver' r r' ∨ NewerByBoth ver ver' r' r

variable {ver ver'}

namespace Aligned

theorem mono
    {records fewer : Set ρ} (h : Aligned ver ver' base records) (hsub : fewer ⊆ records) :
    Aligned ver ver' base fewer where
  one_base := h.one_base
  base_first := fun b hb r hr => h.base_first b hb r (hsub hr)
  ordered := fun r hr r' hr' => h.ordered r (hsub hr) r' (hsub hr')

/-- A newest overlaid record by one version is one by the other. -/
theorem newest_overlay_iff (h : Aligned ver ver' base overlay) (r : ρ) :
    Newest ver overlay r ↔ Newest ver' overlay r := by
  constructor
  · rintro ⟨hr, hnewest⟩
    refine ⟨hr, fun r' hr' => ?_⟩
    rcases h.ordered r hr r' hr' with rfl | hnewer | holder
    · exact le_rfl
    · exact absurd hnewer.1 (not_lt_of_ge (hnewest r' hr'))
    · exact holder.2.le
  · rintro ⟨hr, hnewest⟩
    refine ⟨hr, fun r' hr' => ?_⟩
    rcases h.ordered r hr r' hr' with rfl | hnewer | holder
    · exact le_rfl
    · exact absurd hnewer.2 (not_lt_of_ge (hnewest r' hr'))
    · exact holder.1.le

/-- Both readers serve the same record. -/
theorem served_iff_newest (h : Aligned ver ver' base overlay) (r : ρ) :
    Served ver base overlay r ↔ Newest ver' (base ∪ overlay) r := by
  constructor
  · rintro (⟨hr, hempty⟩ | hnewest)
    · refine ⟨Or.inl hr, ?_⟩
      rintro r' (hr' | hr')
      · rw [h.one_base hr' hr]
      · exact absurd ⟨r', hr'⟩ hempty
    · obtain ⟨hr, hmax⟩ := (h.newest_overlay_iff r).mp hnewest
      refine ⟨Or.inr hr, ?_⟩
      rintro r' (hr' | hr')
      · rcases h.base_first r' hr' r hr with rfl | hnewer
        · exact le_rfl
        · exact hnewer.2.le
      · exact hmax r' hr'
  · rintro ⟨hr, hmax⟩
    by_cases hoverlay : r ∈ overlay
    · right
      exact (h.newest_overlay_iff r).mpr
        ⟨hoverlay, fun r' hr' => hmax r' (Or.inr hr')⟩
    · left
      have hbase : r ∈ base := hr.resolve_right hoverlay
      refine ⟨hbase, ?_⟩
      rintro ⟨d, hd⟩
      rcases h.base_first r hbase d hd with rfl | hnewer
      · exact hoverlay hd
      · exact absurd hnewer.2 (not_lt_of_ge (hmax d (Or.inr hd)))

/-- Two newest records by the second version are one record. -/
theorem newest_unique
    (h : Aligned ver ver' base overlay) {r r' : ρ}
    (hr : Newest ver' (base ∪ overlay) r) (hr' : Newest ver' (base ∪ overlay) r') :
    r = r' := by
  have hsame : ver' r = ver' r' := le_antisymm (hr'.2 r hr.1) (hr.2 r' hr'.1)
  have hne : ∀ a b : ρ, NewerByBoth ver ver' a b → ver' a ≠ ver' b :=
    fun a b hnewer => ne_of_lt hnewer.2
  rcases hr.1 with hb | ho <;> rcases hr'.1 with hb' | ho'
  · exact h.one_base hb hb'
  · exact (h.base_first r hb r' ho').resolve_right (fun hn => hne r r' hn hsame)
  · exact ((h.base_first r' hb' r ho).resolve_right (fun hn => hne r' r hn hsame.symm)).symm
  · rcases h.ordered r ho r' ho' with heq | hnewer | hnewer
    · exact heq
    · exact absurd hsame (hne r r' hnewer)
    · exact absurd hsame.symm (hne r' r hnewer)

end Aligned

end TwoReaders

end Overlay
end Northwind
