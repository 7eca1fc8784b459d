import Mathlib.Data.List.Nodup

namespace Lib

variable {α : Type u} {β : Type v} {κ : Type w} [DecidableEq κ] (key : α → κ) (keyOf : β → κ)
  {f : α → List β} {l : List α}

/-- A key that no item has is on nothing that the items give rise to. -/
theorem flatMap_filter_absent (hf : ∀ a ∈ l, ∀ b ∈ f a, keyOf b = key a) (hk : k ∉ l.map key) :
    (l.flatMap f).filter (fun b => keyOf b = k) = [] := by
  apply List.filter_eq_nil_iff.mpr
  intro b hb
  obtain ⟨a, ha, hba⟩ := List.mem_flatMap.mp hb
  rw [hf a ha b hba, decide_eq_true_eq]
  rintro rfl
  exact hk (List.mem_map_of_mem ha)

/-- Where the keys are distinct, what is found under a key is what its item gives
rise to. -/
theorem flatMap_filter_key (hf : ∀ a ∈ l, ∀ b ∈ f a, keyOf b = key a) (hn : (l.map key).Nodup)
    (ha : a ∈ l) : (l.flatMap f).filter (fun b => keyOf b = key a) = f a := by
  induction l with
  | nil => cases ha
  | cons c l ih =>
    obtain ⟨hc, hn⟩ := List.nodup_cons.mp hn
    have hrest : ∀ a ∈ l, ∀ b ∈ f a, keyOf b = key a :=
      fun a ha => hf a (List.mem_cons_of_mem c ha)
    rw [List.flatMap_cons, List.filter_append]
    rcases List.mem_cons.mp ha with rfl | ha
    · have hall : (f a).filter (fun b => keyOf b = key a) = f a := by
        apply List.filter_eq_self.mpr
        intro b hb
        exact decide_eq_true (hf a List.mem_cons_self b hb)
      rw [hall, flatMap_filter_absent key keyOf hrest hc, List.append_nil]
    · have hnone : (f c).filter (fun b => keyOf b = key a) = [] := by
        apply List.filter_eq_nil_iff.mpr
        intro b hb
        rw [hf c List.mem_cons_self b hb, decide_eq_true_eq]
        intro he
        exact hc (he ▸ List.mem_map_of_mem ha)
      rw [hnone, List.nil_append]
      exact ih hrest hn ha

/-- The items that pass, under the key of one of them. -/
theorem filter_map_filter_key {p : α → Bool} (g : α → β) (hg : ∀ a ∈ l, keyOf (g a) = key a)
    (hn : (l.map key).Nodup) (ha : a ∈ l) :
    ((l.filter p).map g).filter (fun b => keyOf b = key a) = if p a then [g a] else [] := by
  have hsub : ((l.filter p).map key).Nodup := hn.sublist (List.filter_sublist.map key)
  have hf : ∀ a ∈ l.filter p, ∀ b ∈ [g a], keyOf b = key a := by
    intro a ha b hb
    rw [List.mem_singleton.mp hb]
    exact hg a (List.mem_of_mem_filter ha)
  rw [List.map_eq_flatMap]
  split
  · rename_i hp
    exact flatMap_filter_key key keyOf hf hsub (List.mem_filter.mpr ⟨ha, hp⟩)
  · rename_i hp
    apply flatMap_filter_absent key keyOf hf
    intro hk
    obtain ⟨c, hc, he⟩ := List.mem_map.mp hk
    have hca : c = a := List.inj_on_of_nodup_map hn (List.mem_of_mem_filter hc) ha he
    rw [hca] at hc
    exact hp (List.mem_filter.mp hc).2

end Lib
