import Mathlib.Data.List.Forall2
import Tablewright.Deployment.Request

namespace Tablewright.Deployment

open Argument (ofText? ofTexts?)

def Request.previewed (r : Request) : Request := { r with dryRun := true }

namespace Command

/-- Arguments that are all taken, and the request after them. -/
inductive Taken : Request → List Argument → Request → Prop
  | nil (r : Request) : Taken r [] r
  | attached {r s : Request} {flag : Flag} {text : String} {as : List Argument}
      (hf : flag.takesValue = true) (h : Taken (setValue flag text r) as s) :
      Taken r (.option flag (some text) :: as) s
  | valued {r s : Request} {flag : Flag} {text : String} {as : List Argument}
      (hf : flag.takesValue = true) (h : Taken (setValue flag text r) as s) :
      Taken r (.option flag none :: .word text :: as) s
  | flag {r s : Request} {flag : Flag} {as : List Argument} (hf : flag.takesValue = false)
      (hh : flag ≠ .help) (h : Taken (setFlag flag r) as s) :
      Taken r (.option flag none :: as) s
  | cluster {r s : Request} {flag : Flag} {letters : List Char} {flags : List Flag}
      {as : List Argument} (hl : letterFlags? letters = some (flags, true))
      (hh : Flag.help ∉ flag :: flags)
      (h : Taken ((flag :: flags).foldl (fun r f => setFlag f r) r) as s) :
      Taken r (.cluster flag letters :: as) s

variable {r s : Request} {as bs : List Argument}

theorem taken_of_read {isClean : Bool} (h : read r isClean as = .deploy s) :
    isClean = true ∧ Taken r as s := by
  fun_induction read r isClean as with
  | case1 r =>
    cases h
    exact ⟨rfl, .nil _⟩
  | case3 _ _ _ _ ih | case4 _ _ _ ih => cases (ih h).1
  | case5 _ _ _ hf _ _ ih => exact ⟨(ih h).1, .attached hf (ih h).2⟩
  | case6 _ _ _ hf _ _ ih => exact ⟨(ih h).1, .valued hf (ih h).2⟩
  | case10 _ _ _ attached _ hf ha hh ih =>
    obtain rfl : attached = none := by simpa using ha
    exact ⟨(ih h).1, .flag (by simpa using hf) hh (ih h).2⟩
  | case13 _ _ _ _ _ _ _ hl hh ih =>
    obtain ⟨hclean, htaken⟩ := ih h
    obtain ⟨hc, rfl⟩ := Bool.and_eq_true_iff.mp hclean
    exact ⟨hc, .cluster hl (by simpa using hh) htaken⟩
  | _ => cases h

theorem setFlag_previewed (flag : Flag) (r : Request) :
    setFlag flag r.previewed = (setFlag flag r).previewed := by
  cases flag <;> rfl

theorem setValue_previewed (flag : Flag) (text : String) (r : Request) :
    setValue flag text r.previewed = (setValue flag text r).previewed := by
  cases flag <;> rfl

theorem foldl_previewed (flags : List Flag) (r : Request) :
    flags.foldl (fun r f => setFlag f r) r.previewed =
      (flags.foldl (fun r f => setFlag f r) r).previewed := by
  induction flags generalizing r with
  | nil => rfl
  | cons flag flags ih => rw [List.foldl_cons, setFlag_previewed, ih, List.foldl_cons]

namespace Taken

theorem read_append (h : Taken r as s) (bs : List Argument) :
    read r true (as ++ bs) = read s true bs := by
  induction h with
  | nil r => rfl
  | attached hf _ ih => simp [read, hf, ih]
  | valued hf _ ih => simp [read, hf, ih]
  | flag hf hh _ ih =>
    rw [List.cons_append, read.eq_def]
    simp [hf, hh, ih]
  | cluster hl hh _ ih =>
    rw [List.cons_append, read, hl]
    dsimp only
    rw [if_neg (by simpa using hh), Bool.true_and, ih]

theorem read_eq (h : Taken r as s) : read r true as = .deploy s := by
  rw [← List.append_nil as, h.read_append]
  rfl

theorem unique {t : Request} (h : Taken r as s) (ht : Taken r as t) : s = t :=
  Command.deploy.inj (h.read_eq.symm.trans ht.read_eq)

theorem of_append {t : Request} (h : Taken r as s) (ht : Taken r (as ++ bs) t) : Taken s bs t :=
  (taken_of_read ((h.read_append bs).symm.trans ht.read_eq)).2

theorem append {t : Request} (h : Taken r as s) (ht : Taken s bs t) : Taken r (as ++ bs) t :=
  (taken_of_read ((h.read_append bs).trans ht.read_eq)).2

theorem split {x : Argument} (hx : ∀ text, x ≠ .word text) :
    ∀ {as : List Argument} {r s : Request}, Taken r (as ++ x :: bs) s →
      ∃ m, Taken r as m ∧ Taken m (x :: bs) s
  | [], r, _, h => ⟨r, .nil r, h⟩
  | a :: as, r, s, h => by
    rw [List.cons_append] at h
    generalize hxs : as ++ x :: bs = xs at h
    cases h with
    | attached hf h =>
      subst hxs
      obtain ⟨m, hm, hrest⟩ := split hx h
      exact ⟨m, .attached hf hm, hrest⟩
    | valued hf h =>
      cases as with
      | nil =>
        cases hxs
        exact absurd rfl (hx _)
      | cons b as =>
        cases hxs
        obtain ⟨m, hm, hrest⟩ := split hx h
        exact ⟨m, .valued hf hm, hrest⟩
    | flag hf hh h =>
      subst hxs
      obtain ⟨m, hm, hrest⟩ := split hx h
      exact ⟨m, .flag hf hh hm, hrest⟩
    | cluster hl hh h =>
      subst hxs
      obtain ⟨m, hm, hrest⟩ := split hx h
      exact ⟨m, .cluster hl hh hm, hrest⟩

theorem stranger_notMem (h : Taken r as s) : Argument.stranger ∉ as := by
  induction h with
  | nil r => exact List.not_mem_nil
  | attached _ _ ih | flag _ _ _ ih | cluster _ _ _ ih => simp [ih]
  | valued _ _ ih => simp [ih]

theorem previewed (h : Taken r as s) : Taken r.previewed as s.previewed := by
  induction h with
  | nil r => exact .nil r.previewed
  | attached hf _ ih => exact .attached hf (setValue_previewed .. ▸ ih)
  | valued hf _ ih => exact .valued hf (setValue_previewed .. ▸ ih)
  | flag hf hh _ ih => exact .flag hf hh (setFlag_previewed .. ▸ ih)
  | cluster hl hh _ ih => exact .cluster hl hh (foldl_previewed .. ▸ ih)

theorem dryRun (r : Request) : Taken r [.option .dryRun none] r.previewed :=
  .flag rfl (by decide) (.nil r.previewed)

end Taken

def Means (text : String) (a : Argument) : Prop := text ≠ "--" ∧ ofText? text = some a

variable {texts : List String}

theorem ofTexts?_of_means (h : List.Forall₂ Means texts as) : ofTexts? texts = some as := by
  induction h with
  | nil => rfl
  | cons hm _ ih => rw [ofTexts?, if_neg hm.1, hm.2, ih]

theorem means_of_ofTexts? (h : ofTexts? texts = some as) (hs : Argument.stranger ∉ as) :
    List.Forall₂ Means texts as := by
  induction texts generalizing as with
  | nil =>
    cases h
    exact .nil
  | cons t ts ih =>
    rw [ofTexts?] at h
    split at h
    · cases h
      exact absurd List.mem_cons_self hs
    · rename_i ht
      split at h
      · rename_i a rest ha hrest
        cases h
        exact .cons ⟨ht, ha⟩ (ih hrest fun hm => hs (List.mem_cons_of_mem a hm))
      · cases h

theorem ofArguments_eq_deploy :
    ofArguments texts = .deploy r ↔ ∃ as, List.Forall₂ Means texts as ∧ Taken nothing as r := by
  rw [ofArguments]
  constructor
  · intro h
    split at h
    · rename_i as has
      obtain ⟨-, htaken⟩ := taken_of_read h
      exact ⟨as, means_of_ofTexts? has htaken.stranger_notMem, htaken⟩
    · cases h
  · rintro ⟨as, has, htaken⟩
    rw [ofTexts?_of_means has]
    exact htaken.read_eq

theorem means_dryRun : Means "--dry-run" (.option .dryRun none) := ⟨by decide, by decide +kernel⟩

theorem ofArguments_dryRun_cons (h : ofArguments texts = .deploy r) :
    ofArguments ("--dry-run" :: texts) = .deploy r.previewed := by
  obtain ⟨as, has, htaken⟩ := ofArguments_eq_deploy.mp h
  exact ofArguments_eq_deploy.mpr
    ⟨_, .cons means_dryRun has, (Taken.dryRun nothing).append htaken.previewed⟩

theorem ofArguments_append_dryRun (h : ofArguments texts = .deploy r) :
    ofArguments (texts ++ ["--dry-run"]) = .deploy r.previewed := by
  obtain ⟨as, has, htaken⟩ := ofArguments_eq_deploy.mp h
  exact ofArguments_eq_deploy.mpr
    ⟨_, List.rel_append has (.cons means_dryRun .nil), htaken.append (.dryRun r)⟩

theorem exists_of_means_append {before after : List String} {as : List Argument}
    (h : List.Forall₂ Means (before ++ after) as) :
    ∃ bs cs, as = bs ++ cs ∧ List.Forall₂ Means before bs ∧ List.Forall₂ Means after cs := by
  induction before generalizing as with
  | nil => exact ⟨[], as, rfl, .nil, h⟩
  | cons t ts ih =>
    obtain ⟨a, rest, ha, hrest, rfl⟩ := List.forall₂_cons_left_iff.mp h
    obtain ⟨bs, cs, rfl, hbs, hcs⟩ := ih hrest
    exact ⟨a :: bs, cs, rfl, .cons ha hbs, hcs⟩

theorem means_unique (h : List.Forall₂ Means texts as) (h' : List.Forall₂ Means texts bs) :
    as = bs :=
  Option.some.inj ((ofTexts?_of_means h).symm.trans (ofTexts?_of_means h'))

/-- Wherever a look is asked for, nothing else changes: what is refused then is an option that was
cut off from its value. -/
theorem eq_previewed_of_insert {before after : List String} {d : Request}
    (h : ofArguments (before ++ after) = .deploy r)
    (hd : ofArguments (before ++ "--dry-run" :: after) = .deploy d) : d = r.previewed := by
  obtain ⟨_, hmeans, hlook⟩ := ofArguments_eq_deploy.mp hd
  obtain ⟨_, hbare, htaken⟩ := ofArguments_eq_deploy.mp h
  obtain ⟨bs, _, rfl, hbs, hrest⟩ := exists_of_means_append hmeans
  obtain ⟨_, cs, hdry, hcs, rfl⟩ := List.forall₂_cons_left_iff.mp hrest
  obtain rfl := Option.some.inj (hdry.2.symm.trans means_dryRun.2)
  rw [← means_unique (List.rel_append hbs hcs) hbare] at htaken
  -- The arguments before are taken whole, so those after them are taken alike in both.
  obtain ⟨m, hm, hafter⟩ := Taken.split (by simp) hlook
  have hsame : Taken m.previewed cs d := (Taken.dryRun m).of_append hafter
  exact hsame.unique (hm.of_append htaken).previewed

end Command

end Tablewright.Deployment
