import Mathlib.Data.List.Nodup
import Mathlib.Data.String.Basic
import Tablewright.Catalog

namespace Tablewright

namespace Entry

def Distinct (folder : Entry) : Prop := (folder.entries.map (·.1)).Nodup

theorem mem_namesWith {folder : Entry} {ending name : String} :
    name ∈ folder.namesWith ending ↔
      name ∈ folder.entries.map (·.1) ∧ ending.toList <:+ name.toList := by
  rw [namesWith, List.mem_mergeSort, List.mem_filter, List.isSuffixOf_iff_suffix]

theorem pairwise_namesWith (folder : Entry) (ending : String) :
    (folder.namesWith ending).Pairwise (· ≤ ·) := by
  have htrans (a b c : String) (hab : decide (a ≤ b) = true) (hbc : decide (b ≤ c) = true) :
      decide (a ≤ c) = true :=
    decide_eq_true (String.le_trans (of_decide_eq_true hab) (of_decide_eq_true hbc))
  have htotal (a b : String) : (decide (a ≤ b) || decide (b ≤ a)) = true := by
    rw [Bool.or_eq_true, decide_eq_true_eq, decide_eq_true_eq]
    exact String.le_total a b
  have hsorted := List.pairwise_mergeSort htrans htotal
    ((folder.entries.map (·.1)).filter (ending.toList.isSuffixOf ·.toList))
  exact hsorted.imp of_decide_eq_true

theorem Distinct.nodup_namesWith {folder : Entry} (h : folder.Distinct) (ending : String) :
    (folder.namesWith ending).Nodup :=
  (List.Nodup.filter _ h).mergeSort

theorem Distinct.sorted_namesWith {folder : Entry} (h : folder.Distinct) (ending : String) :
    (folder.namesWith ending).Pairwise (·.toList < ·.toList) := by
  refine ((pairwise_namesWith folder ending).and (h.nodup_namesWith ending)).imp fun hab => ?_
  rw [← String.lt_iff_toList_lt]
  exact lt_of_le_of_ne hab.1 hab.2

theorem isSome_lookup_iff {folder : Entry} {name : String} :
    (folder.entries.lookup name).isSome = true ↔ name ∈ folder.entries.map (·.1) := by
  rw [List.lookup_isSome_iff, List.mem_map]
  constructor
  · rintro ⟨p, hp, he⟩
    exact ⟨p, hp, (beq_iff_eq.mp he).symm⟩
  · rintro ⟨p, hp, rfl⟩
    exact ⟨p, hp, beq_self_eq_true p.1⟩

section

variable {pick : Option Entry → Option α} {ending : String}

theorem mem_filter_namesWith (hnone : pick none = none) {folder : Entry} {name : String} :
    name ∈ (folder.namesWith ending).filter (fun n => (pick (folder.entries.lookup n)).isSome) ↔
      ending.toList <:+ name.toList ∧ (pick (folder.entries.lookup name)).isSome = true := by
  rw [List.mem_filter, mem_namesWith, and_assoc, and_iff_right_iff_imp]
  rintro ⟨-, hp⟩
  rw [← isSome_lookup_iff]
  cases hl : folder.entries.lookup name with
  | none => simp [hl, hnone] at hp
  | some e => rfl

variable {folder other : Entry}

theorem filter_namesWith_eq (hf : folder.Distinct) (ho : other.Distinct) (hnone : pick none = none)
    (h : ∀ name, ending.toList <:+ name.toList →
      pick (folder.entries.lookup name) = pick (other.entries.lookup name)) :
    (folder.namesWith ending).filter (fun n => (pick (folder.entries.lookup n)).isSome) =
      (other.namesWith ending).filter (fun n => (pick (other.entries.lookup n)).isSome) := by
  have hmem : ∀ name,
      name ∈ (folder.namesWith ending).filter (fun n => (pick (folder.entries.lookup n)).isSome) ↔
        name ∈ (other.namesWith ending).filter
          (fun n => (pick (other.entries.lookup n)).isSome) := by
    intro name
    rw [mem_filter_namesWith hnone, mem_filter_namesWith hnone, and_congr_right_iff]
    exact fun he => by rw [h name he]
  have hperm := (List.perm_ext_iff_of_nodup ((hf.nodup_namesWith ending).filter _)
    ((ho.nodup_namesWith ending).filter _)).mpr hmem
  -- Two sorted lists of the same names are one list.
  exact hperm.eq_of_pairwise (fun _ _ _ _ => String.le_antisymm)
    ((pairwise_namesWith folder ending).filter _) ((pairwise_namesWith other ending).filter _)

theorem filterMap_filter_isSome (f : α → Option β) (xs : List α) :
    (xs.filter fun x => (f x).isSome).filterMap f = xs.filterMap f := by
  rw [List.filterMap_filter]
  refine List.filterMap_congr fun x _ => ?_
  cases f x <;> rfl

theorem filterMap_namesWith_eq (pick : Option Entry → Option α) (hf : folder.Distinct)
    (ho : other.Distinct) (hnone : pick none = none)
    (h : ∀ name, ending.toList <:+ name.toList →
      pick (folder.entries.lookup name) = pick (other.entries.lookup name)) (f : String → α → β) :
    (folder.namesWith ending).filterMap (fun n => (pick (folder.entries.lookup n)).map (f n)) =
      (other.namesWith ending).filterMap (fun n => (pick (other.entries.lookup n)).map (f n)) := by
  have hsome (e : Entry) (n : String) :
      ((pick (e.entries.lookup n)).map (f n)).isSome = (pick (e.entries.lookup n)).isSome :=
    Option.isSome_map
  rw [← filterMap_filter_isSome, ← filterMap_filter_isSome _ (other.namesWith ending)]
  simp only [hsome, filter_namesWith_eq hf ho hnone h]
  refine List.filterMap_congr fun n hn => ?_
  rw [h n ((mem_filter_namesWith hnone).mp hn).1]

end

end Entry

namespace Source

variable {source : Source}

theorem map_files (folder : Entry) :
    (source.files folder).map (·.1) =
      (source.endings.flatMap folder.namesWith).map source.directory.child := by
  rw [files, List.map_flatMap, List.map_flatMap]
  refine List.flatMap_congr fun ending _ => ?_
  have hall : ∀ name ∈ folder.namesWith ending,
      ((folder.entries.lookup name).map fun e => (source.directory.child name, e)).map (·.1) =
        some (source.directory.child name) := by
    intro name hn
    have hsome := Entry.isSome_lookup_iff.mpr (Entry.mem_namesWith.mp hn).1
    obtain ⟨e, he⟩ := Option.isSome_iff_exists.mp hsome
    rw [he]
    rfl
  rw [List.map_filterMap, ← List.filterMap_eq_map]
  exact List.filterMap_congr hall

end Source

end Tablewright
