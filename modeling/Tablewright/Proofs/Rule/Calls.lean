import Tablewright.Proofs.Rule.Functions

namespace Tablewright

namespace Run

/-- A computation that calls none but some functions. -/
def CallsOnly (P : Nat → Prop) (r : Run α) : Prop :=
  ∀ calls, ∃ new, (r calls).2 = new ++ calls ∧ ∀ slot ∈ new, P slot

theorem CallsOnly.bind {P : Nat → Prop} {r : Run α} {next : α → Run β} (hr : r.CallsOnly P)
    (hn : ∀ a, r.MayGive a → (next a).CallsOnly P) : (r >>= next).CallsOnly P := by
  intro calls
  obtain ⟨first, hfirst, hp⟩ := hr calls
  rw [bind_apply]
  generalize ho : r calls = o at hfirst
  obtain ⟨result, mid⟩ := o
  subst hfirst
  cases result with
  | error f => exact ⟨first, rfl, hp⟩
  | ok a =>
    obtain ⟨second, hsecond, hq⟩ := hn a ⟨calls, _, ho⟩ (first ++ calls)
    refine ⟨second ++ first, ?_, List.forall_mem_append.mpr ⟨hq, hp⟩⟩
    rw [List.append_assoc]
    exact hsecond

theorem closed_callsOnly (P : Nat → Prop) : Closed (CallsOnly P) :=
  ⟨fun _ _ => ⟨[], rfl, fun _ h => absurd h List.not_mem_nil⟩, CallsOnly.bind⟩

/-- A computation that calls the function in a slot so many times, if no fault ends it. -/
def Adds (slot count : Nat) (r : Run α) : Prop :=
  ∀ calls a later, r calls = (.ok a, later) → later.times slot = calls.times slot + count

theorem adds_pure (slot : Nat) (a : α) : (Pure.pure a : Run α).Adds slot 0 := by
  rintro calls b later ⟨⟩
  rfl

theorem Adds.bind {slot m n : Nat} {r : Run α} {next : α → Run β} (hr : r.Adds slot m)
    (hn : ∀ a, r.MayGive a → (next a).Adds slot n) : (r >>= next).Adds slot (m + n) := by
  intro calls b later h
  obtain ⟨a, mid, ha, hb⟩ := bind_eq_ok.mp h
  rw [hn a ⟨calls, mid, ha⟩ mid b later hb, hr calls a mid ha, Nat.add_assoc]

theorem closed_adds_zero (slot : Nat) : Closed (Adds slot 0) := ⟨adds_pure slot, Adds.bind⟩

theorem Adds.mapM {slot : Nat} {f : α → Run β} {p : α → Bool} {xs : List α}
    (h : ∀ x ∈ xs, (f x).Adds slot (p x).toNat) : (xs.mapM f).Adds slot (xs.countP p) := by
  induction xs with
  | nil => exact adds_pure slot []
  | cons x xs ih =>
    have hcount : (x :: xs).countP p = (p x).toNat + xs.countP p := by
      rw [List.countP_cons, Nat.add_comm]
      cases p x <;> rfl
    have hxs := ih fun y hy => h y (List.mem_cons_of_mem x hy)
    rw [List.mapM_cons, hcount]
    exact (h x List.mem_cons_self).bind fun y _ => hxs.bind fun ys _ => adds_pure slot (y :: ys)

theorem Adds.mapM_single {slot count : Nat} {f : α → Run β} {left right : List α} {x : α}
    (hx : (f x).Adds slot count) (h : ∀ y ∈ left ++ right, (f y).Adds slot 0) :
    ((left ++ x :: right).mapM f).Adds slot count := by
  have hleft : (left.mapM f).Adds slot 0 :=
    (closed_adds_zero slot).mapM fun y hy => h y (List.mem_append_left _ hy)
  have hright : (right.mapM f).Adds slot 0 :=
    (closed_adds_zero slot).mapM fun y hy => h y (List.mem_append_right _ hy)
  have hrest := hx.bind fun b _ => hright.bind fun bs _ => adds_pure slot (b :: bs)
  have hall := hleft.bind fun as _ => hrest.bind fun bs _ => adds_pure slot (as ++ bs)
  rw [List.mapM_append, List.mapM_cons]
  simpa using hall

end Run

theorem DefaultSource.calls_of_give {s : DefaultSource} {v : Value} {calls later : Calls}
    (h : s.give calls = (.ok v, later)) : later = s.factory?.toList.map (·.slot) ++ calls := by
  cases s <;> exact (congrArg Prod.snd h).symm

theorem DefaultSource.give_factory {f : Callable} {v : Value} {calls : Calls}
    (h : f.source (calls.times f.slot) = .ok v) :
    (factory f).give calls = (.ok v, f.slot :: calls) := by
  rw [give, Callable.supply, h]

namespace Rule

theorem reverse_ownSlots (r : Rule) : r.ownSlots.reverse = r.ownSlots := by
  rw [ownSlots]
  cases r.ownFactory? <;> rfl

theorem calls_of_unwrap {r : Rule} {u : Unwrapped} {calls later : Calls}
    (h : r.unwrap calls = (.ok u, later)) : later = r.ownSlots ++ calls := by
  rw [unwrap_eq] at h
  rw [ownSlots, ownFactory?]
  cases hs : r.source? with
  | none =>
    rw [hs] at h
    cases h
    rfl
  | some source =>
    rw [hs] at h
    obtain ⟨v, mid, hv, h⟩ := Run.bind_eq_ok.mp h
    cases h
    exact DefaultSource.calls_of_give hv

theorem eq_of_unwrap {r : Rule} {u : Unwrapped} {calls later : Calls}
    (h : r.unwrap calls = (.ok u, later)) {f : Callable} (hf : r.ownFactory? = some f) {v : Value}
    (hv : f.source (calls.times f.slot) = .ok v) :
    u = ⟨r.leaf, r.layers.any admitsNull, some v⟩ := by
  rw [unwrap_eq, ownFactory?_eq_some.mp hf] at h
  cases h.symm.trans (Run.bind_ok (DefaultSource.give_factory hv))
  rfl

end Rule

end Tablewright
