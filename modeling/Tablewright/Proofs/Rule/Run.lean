import Tablewright.Function

namespace Tablewright

namespace Run

theorem pure_apply (a : α) (calls : Calls) : (Pure.pure a : Run α) calls = (.ok a, calls) := rfl

theorem bind_apply (r : Run α) (next : α → Run β) (calls : Calls) :
    (r >>= next) calls = match r calls with
      | (.ok a, later) => next a later
      | (.error f, later) => (.error f, later) := rfl

theorem id_bind (r : Run α) : (r >>= fun a => Pure.pure a) = r := by
  funext calls
  rw [bind_apply]
  cases h : r calls with
  | mk result later => cases result <;> rfl

theorem assoc (r : Run α) (f : α → Run β) (g : β → Run γ) :
    r >>= f >>= g = r >>= fun a => f a >>= g := by
  funext calls
  simp only [bind_apply]
  cases h : r calls with
  | mk result later => cases result <;> rfl

instance : LawfulMonad Run :=
  LawfulMonad.mk' Run (fun r => id_bind r) (fun _ _ => rfl) assoc

theorem bind_ok {r : Run α} {next : α → Run β} {calls mid : Calls} {a : α}
    (h : r calls = (.ok a, mid)) : (r >>= next) calls = next a mid := by
  rw [bind_apply, h]

theorem bind_error {r : Run α} {next : α → Run β} {calls later : Calls} {f : Fault}
    (h : r calls = (.error f, later)) : (r >>= next) calls = (.error f, later) := by
  rw [bind_apply, h]

theorem bind_eq_ok {r : Run α} {next : α → Run β} {calls later : Calls} {b : β} :
    (r >>= next) calls = (.ok b, later) ↔
      ∃ a mid, r calls = (.ok a, mid) ∧ next a mid = (.ok b, later) := by
  rw [bind_apply]
  constructor
  · intro h
    cases hr : r calls with
    | mk result mid =>
      rw [hr] at h
      cases result with
      | ok a => exact ⟨a, mid, rfl, h⟩
      | error f => cases h
  · rintro ⟨a, mid, hr, hn⟩
    rw [hr]
    exact hn

theorem mapM_cons_eq_ok {f : α → Run β} {x : α} {xs : List α} {calls later : Calls}
    {ys : List β} (h : (x :: xs).mapM f calls = (.ok ys, later)) :
    ∃ y mid zs, f x calls = (.ok y, mid) ∧ xs.mapM f mid = (.ok zs, later) ∧ ys = y :: zs := by
  rw [List.mapM_cons] at h
  obtain ⟨y, mid, hy, h⟩ := bind_eq_ok.mp h
  obtain ⟨zs, last, hzs, h⟩ := bind_eq_ok.mp h
  cases h
  exact ⟨y, mid, zs, hy, hzs, rfl⟩

theorem length_of_mapM {f : α → Run β} {xs : List α} {calls later : Calls} {ys : List β}
    (h : xs.mapM f calls = (.ok ys, later)) : ys.length = xs.length := by
  induction xs generalizing calls ys with
  | nil =>
    cases h
    rfl
  | cons x xs ih =>
    obtain ⟨y, mid, zs, -, hzs, rfl⟩ := mapM_cons_eq_ok h
    rw [List.length_cons, List.length_cons, ih hzs]

theorem mapM_congr {f g : α → Run β} {xs : List α} (h : ∀ x ∈ xs, f x = g x) :
    xs.mapM f = xs.mapM g := by
  induction xs with
  | nil => rfl
  | cons x xs ih =>
    rw [List.mapM_cons, List.mapM_cons, h x (by simp), ih fun y hy => h y (by simp [hy])]

theorem mapM_map (f : α → Run β) (g : β → γ) (xs : List α) :
    (xs.mapM fun x => g <$> f x) = List.map g <$> xs.mapM f := by
  induction xs with
  | nil => rfl
  | cons x xs ih =>
    rw [List.mapM_cons, List.mapM_cons, ih]
    simp only [map_eq_pure_bind, bind_assoc, pure_bind, List.map_cons]

/-- A value that a computation gives after some calls. -/
def MayGive (r : Run α) (a : α) : Prop := ∃ calls later, r calls = (.ok a, later)

def Returns (r : Run α) : Prop := ∀ calls, ∃ a later, r calls = (.ok a, later)

theorem returns_pure (a : α) : (Pure.pure a : Run α).Returns := fun calls => ⟨a, calls, rfl⟩

theorem Returns.bind {r : Run α} {next : α → Run β} (hr : r.Returns)
    (hn : ∀ a, r.MayGive a → (next a).Returns) : (r >>= next).Returns := by
  intro calls
  obtain ⟨a, mid, ha⟩ := hr calls
  obtain ⟨b, later, hb⟩ := hn a ⟨calls, mid, ha⟩ mid
  exact ⟨b, later, by rw [bind_ok ha, hb]⟩

/-- A property of computations that those put together from others take over from them. What goes
on after a computation matters only for the values that it may give. -/
structure Closed (K : ∀ {α : Type}, Run α → Prop) : Prop where
  pure : ∀ {α : Type} (a : α), K (Pure.pure a : Run α)
  bind : ∀ {α β : Type} {r : Run α} {next : α → Run β}, K r →
    (∀ a, r.MayGive a → K (next a)) → K (r >>= next)

theorem Closed.mapM {K : ∀ {α : Type}, Run α → Prop} (hK : Closed K)
    {f : α → Run β} {xs : List α} (h : ∀ x ∈ xs, K (f x)) : K (xs.mapM f) := by
  induction xs with
  | nil => exact hK.pure []
  | cons x xs ih =>
    rw [List.mapM_cons]
    refine hK.bind (h x (by simp)) fun y _ => ?_
    exact hK.bind (ih fun z hz => h z (by simp [hz])) fun ys _ => hK.pure (y :: ys)

theorem closed_returns : Closed Returns := ⟨returns_pure, Returns.bind⟩

theorem Returns.mapM {f : α → Run β} {xs : List α} (h : ∀ x ∈ xs, (f x).Returns) :
    (xs.mapM f).Returns :=
  closed_returns.mapM h

end Run

namespace Callable

def Supplies (f : Callable) : Prop := ∀ n, ∃ v, f.source n = .ok v

theorem Supplies.returns {f : Callable} (h : f.Supplies) : f.supply.Returns := by
  intro calls
  obtain ⟨v, hv⟩ := h (calls.times f.slot)
  exact ⟨v, f.slot :: calls, by rw [supply, hv]⟩

def Counts (f : Callable) (start : Int) : Prop :=
  ∀ n : Nat, f.source n = .ok (.int (start + n))

def counter (slot : Nat) (start : Int) : Callable :=
  .ofSource slot fun n => .ok (.int (start + n))

theorem counts_counter (slot : Nat) (start : Int) : (counter slot start).Counts start :=
  fun _ => rfl

def even (slot : Nat) : Callable :=
  .ofTest slot fun
    | .int n => .ok (n % 2 == 0)
    | _ => .error .mistyped

end Callable

def Functions.evens : Functions := fun slot => (Callable.even slot).toBehaviour

end Tablewright
