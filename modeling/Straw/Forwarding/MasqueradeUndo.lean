import Straw.Forwarding.Masquerade

/-!
# When masquerading is undone

The setup appends rules one by one; a failure does not take back those before it, and
the guard deletes every rule of its list, whether the setup appended it or found it.
-/

namespace Straw.Masquerade

open Outcome Proc
set_option autoImplicit false

namespace Kernel

def appended (rules : List MasqueradeRule) (c : NatCommand) : Chain :=
  (rules.filter fun r => r.command = c).map fun r => ⟨r.spec, true⟩

/-- The chains `k` with `rules` appended to them. -/
def plus (k : Kernel) (rules : List MasqueradeRule) : Kernel :=
  ⟨fun c => k.chains c ++ appended rules c⟩

variable {k : Kernel} {rule : MasqueradeRule} {rules added : List MasqueradeRule}

theorem plus_nil (k : Kernel) : k.plus [] = k :=
  ext fun c => List.append_nil (k.chains c)

theorem plus_append (k : Kernel) (added : List MasqueradeRule) (rule : MasqueradeRule) :
    (k.plus added).append rule = k.plus (added ++ [rule]) := by
  apply ext
  intro c
  by_cases hc : c = rule.command
  · subst hc
    rw [append, set_self]
    simp [plus, appended]
  · have hne : ¬ rule.command = c := fun h => hc h.symm
    rw [append, set_of_ne _ hc]
    simp [plus, appended, hne]

theorem plus_ne_self (hadded : added ≠ []) : (k.plus added).chains ≠ k.chains := by
  intro h
  obtain ⟨rule, rest, rfl⟩ := List.exists_cons_of_ne_nil hadded
  have hlen := congrArg List.length (congrFun h rule.command)
  simp [plus, appended] at hlen

theorem holds_plus (hrule : rule.WellFormed) (hadded : ∀ r ∈ added, r.WellFormed) :
    (k.plus added).holds rule = true ↔ k.holds rule = true ∨ rule ∈ added := by
  have hin : (appended added rule.command).holds rule.spec = true ↔ rule ∈ added := by
    simp only [Chain.holds, appended, List.any_map, List.any_filter, List.any_eq_true,
      Function.comp, Bool.and_eq_true, decide_eq_true_eq]
    constructor
    · rintro ⟨r, hr, hcommand, hspec⟩
      rwa [← MasqueradeRule.eq_of_spec (hadded r hr) hrule hcommand hspec]
    · intro hmem
      exact ⟨rule, hmem, rfl, rfl⟩
  rw [← hin]
  simp only [holds, plus, Chain.holds, List.any_append, Bool.or_eq_true]

theorem deleteFirst_of_not_holds {chain : Chain} {spec : List String}
    (h : chain.holds spec = false) : chain.deleteFirst spec = chain := by
  apply List.eraseP_of_forall_not
  intro r hr hspec
  have hany : chain.holds spec = true := List.any_eq_true.mpr ⟨r, hr, hspec⟩
  rw [h] at hany
  cases hany

theorem length_deleteFirst {chain : Chain} {spec : List String} (h : chain.holds spec = true) :
    (chain.deleteFirst spec).length < chain.length := by
  obtain ⟨r, hr, hspec⟩ := List.any_eq_true.mp h
  have hlen : (chain.eraseP fun r => r.spec = spec).length = chain.length - 1 :=
    List.length_eraseP_of_mem hr hspec
  have hpos := List.length_pos_of_mem hr
  rw [Chain.deleteFirst, hlen]
  omega

theorem deleteFirst_appended (hrule : rule.WellFormed) (hadded : ∀ r ∈ added, r.WellFormed) :
    (appended added rule.command).deleteFirst rule.spec =
      appended (added.erase rule) rule.command := by
  induction added with
  | nil => rfl
  | cons r added ih =>
    have ih := ih fun x hx => hadded x (List.mem_cons_of_mem r hx)
    by_cases hr : r = rule
    · subst hr
      simp [appended, Chain.deleteFirst]
    · rw [List.erase_cons_tail (by simpa using hr)]
      by_cases hcommand : r.command = rule.command
      · have hspec : ¬ r.spec = rule.spec := fun h =>
          hr (MasqueradeRule.eq_of_spec (hadded r List.mem_cons_self) hrule hcommand h)
        simp only [appended, Chain.deleteFirst] at ih ⊢
        rw [List.filter_cons_of_pos (by simpa using hcommand), List.map_cons,
          List.eraseP_cons_of_neg (by simpa using hspec), ih,
          List.filter_cons_of_pos (by simpa using hcommand), List.map_cons]
      · simp only [appended, Chain.deleteFirst] at ih ⊢
        rw [List.filter_cons_of_neg (by simpa using hcommand), ih,
          List.filter_cons_of_neg (by simpa using hcommand)]

theorem appended_erase_of_ne {c : NatCommand} (h : c ≠ rule.command) :
    appended (added.erase rule) c = appended added c := by
  induction added with
  | nil => rfl
  | cons r added ih =>
    by_cases hr : r = rule
    · subst hr
      have hne : ¬ r.command = c := fun h' => h h'.symm
      simp [appended, hne]
    · rw [List.erase_cons_tail (by simpa using hr)]
      simp only [appended] at ih ⊢
      rw [List.filter_cons, List.filter_cons]
      split
      · rw [List.map_cons, List.map_cons, ih]
      · exact ih

/-- A rule that was not there before is deleted from the appended ones. -/
theorem delete_plus (hrule : rule.WellFormed) (hadded : ∀ r ∈ added, r.WellFormed)
    (h : k.holds rule = false) : (k.plus added).delete rule = k.plus (added.erase rule) := by
  apply ext
  intro c
  by_cases hc : c = rule.command
  · subst hc
    rw [delete, set_self]
    simp only [plus, Chain.deleteFirst]
    rw [List.eraseP_append_right]
    · rw [← deleteFirst_appended hrule hadded]
      rfl
    · intro r hr hspec
      have hany : k.holds rule = true := List.any_eq_true.mpr ⟨r, hr, hspec⟩
      rw [h] at hany
      cases hany
  · rw [delete, set_of_ne _ hc]
    simp only [plus]
    rw [appended_erase_of_ne hc]

theorem foldl_delete_plus (hrules : ∀ r ∈ rules, r.WellFormed)
    (hadded : ∀ r ∈ added, r.WellFormed) (h : ∀ r ∈ rules, k.holds r = false) :
    rules.foldl delete (k.plus added) = k.plus (added.diff rules) := by
  induction rules generalizing added with
  | nil => rfl
  | cons rule rules ih =>
    rw [List.foldl_cons, delete_plus (hrules rule List.mem_cons_self) hadded
      (h rule List.mem_cons_self), List.diff_cons]
    apply ih
    · exact fun r hr => hrules r (List.mem_cons_of_mem rule hr)
    · exact fun r hr => hadded r (List.mem_of_mem_erase hr)
    · exact fun r hr => h r (List.mem_cons_of_mem rule hr)

/-- The deletions from `k` are the deletions from its first part `old`, and of rules that
were appended to it. -/
def Extends (old k : Kernel) : Prop :=
  ∀ c, ∃ more : Chain, k.chains c = old.chains c ++ more ∧ ∀ r ∈ more, r.added = true

theorem extends_plus (k : Kernel) (added : List MasqueradeRule) : Extends k (k.plus added) := by
  intro c
  refine ⟨appended added c, rfl, ?_⟩
  intro r hr
  obtain ⟨rule, -, rfl⟩ := List.mem_map.mp hr
  rfl

theorem Extends.delete {old : Kernel} (h : Extends old k) (rule : MasqueradeRule) :
    Extends (old.delete rule) (k.delete rule) := by
  intro c
  obtain ⟨more, hmore, hadded⟩ := h c
  by_cases hc : c = rule.command
  · subst hc
    rw [Kernel.delete, Kernel.delete, set_self, set_self, hmore]
    by_cases hold : (old.chains rule.command).holds rule.spec = true
    · obtain ⟨r, hr, hspec⟩ := List.any_eq_true.mp hold
      refine ⟨more, ?_, hadded⟩
      exact List.eraseP_append_left (p := fun r => r.spec = rule.spec) hspec more hr
    · have hfalse : (old.chains rule.command).holds rule.spec = false := by simpa using hold
      refine ⟨more.deleteFirst rule.spec, ?_, ?_⟩
      · rw [deleteFirst_of_not_holds hfalse]
        apply List.eraseP_append_right
        intro r hr hspec
        exact hold (List.any_eq_true.mpr ⟨r, hr, hspec⟩)
      · intro r hr
        exact hadded r (List.mem_of_mem_eraseP hr)
  · rw [Kernel.delete, Kernel.delete, set_of_ne _ hc, set_of_ne _ hc]
    exact ⟨more, hmore, hadded⟩

theorem Extends.foldl_delete {old : Kernel} (h : Extends old k) (rules : List MasqueradeRule) :
    Extends (rules.foldl Kernel.delete old) (rules.foldl Kernel.delete k) := by
  induction rules generalizing old k with
  | nil => exact h
  | cons rule rules ih => exact ih (h.delete rule)

theorem length_foldl_delete_le (k : Kernel) (rules : List MasqueradeRule) (c : NatCommand) :
    ((rules.foldl delete k).chains c).length ≤ (k.chains c).length := by
  induction rules generalizing k with
  | nil => exact Nat.le_refl _
  | cons rule rules ih =>
    refine Nat.le_trans (ih (k.delete rule)) ?_
    by_cases hc : c = rule.command
    · subst hc
      rw [delete, set_self]
      exact List.length_eraseP_le
    · exact Nat.le_of_eq (congrArg List.length (set_of_ne _ hc _))

/-- Deletions that change nothing have found nothing. -/
theorem not_holds_of_foldl_delete (h : rules.foldl delete k = k) :
    ∀ rule ∈ rules, k.holds rule = false := by
  induction rules with
  | nil => simp
  | cons rule rules ih =>
    have hrule : k.holds rule = false := by
      by_contra hholds
      have htrue : (k.chains rule.command).holds rule.spec = true := by
        rwa [Bool.not_eq_false] at hholds
      have hshort := length_deleteFirst htrue
      have hle := length_foldl_delete_le (k.delete rule) rules rule.command
      rw [List.foldl_cons] at h
      rw [h, delete, set_self] at hle
      omega
    have hsame : k.delete rule = k := by
      apply ext
      intro c
      by_cases hc : c = rule.command
      · subst hc
        rw [delete, set_self]
        exact deleteFirst_of_not_holds hrule
      · rw [delete, set_of_ne _ hc]
    rw [List.foldl_cons, hsame] at h
    exact List.forall_mem_cons.mpr ⟨hrule, ih h⟩

theorem diff_eq_nil_of_sublist (h : added.Sublist rules) : added.diff rules = [] := by
  induction rules generalizing added with
  | nil =>
    rw [List.sublist_nil.mp h]
    rfl
  | cons rule rules ih =>
    rw [List.diff_cons]
    apply ih
    simpa using h.erase rule

/-- Dropping the guard restores the chains exactly when none of its rules was in them. -/
theorem foldl_delete_restores_iff (hold : ∀ c, ∀ r ∈ k.chains c, r.added = false)
    (hrules : ∀ r ∈ rules, r.WellFormed) (hadded : added.Sublist rules) :
    (rules.foldl delete (k.plus added)).chains = k.chains ↔
      ∀ rule ∈ rules, k.holds rule = false := by
  constructor
  · intro h
    apply not_holds_of_foldl_delete
    apply ext
    intro c
    obtain ⟨more, hmore, htrue⟩ := (extends_plus k added).foldl_delete rules c
    rw [h] at hmore
    cases more with
    | nil => rw [hmore, List.append_nil]
    | cons r more =>
      have hr : r ∈ k.chains c := by
        rw [hmore]
        exact List.mem_append_right _ List.mem_cons_self
      have hfalse := hold c r hr
      rw [htrue r List.mem_cons_self] at hfalse
      cases hfalse
  · intro h
    rw [foldl_delete_plus hrules (fun r hr => hrules r (hadded.subset hr)) h,
      diff_eq_nil_of_sublist hadded, plus_nil]

end Kernel

section Reversal

variable {env : NatEnv} {k : Kernel} {steps : List (MasqueradeRule × Nat)}
  {added : List MasqueradeRule}

/-- The rules that are appended, and how it ends. -/
theorem installRules_exec (env : NatEnv) (hsteps : ∀ x ∈ steps, x.1.WellFormed) (k : Kernel)
    (added : List MasqueradeRule) :
    ∃ more, more.Sublist (steps.map Prod.fst) ∧
      ((installRules env steps).exec (k.plus added) = (.ok (), k.plus (added ++ more)) ∨
        ∃ e, (installRules env steps).exec (k.plus added) = (fail e, k.plus (added ++ more))) := by
  induction steps generalizing added with
  | nil => exact ⟨[], List.Sublist.refl _, Or.inl (by rw [List.append_nil]; rfl)⟩
  | cons x steps ih =>
    obtain ⟨rule, i⟩ := x
    have hrule := hsteps (rule, i) List.mem_cons_self
    have ih := ih fun x hx => hsteps x (List.mem_cons_of_mem _ hx)
    by_cases hfound : Found env (k.plus added) (rule, i)
    · obtain ⟨more, hmore, hexec⟩ := ih added
      rw [exec_found hrule hfound]
      exact ⟨more, hmore.cons rule, hexec⟩
    · rcases exec_not_found hrule hfound steps with ⟨e, -, hfail⟩ | ⟨-, happend⟩
      · exact ⟨[], List.nil_sublist _, Or.inr ⟨e, by rw [hfail, List.append_nil]⟩⟩
      · obtain ⟨more, hmore, hexec⟩ := ih (added ++ [rule])
        rw [happend, Kernel.plus_append]
        rw [List.append_assoc] at hexec
        exact ⟨rule :: more, hmore.cons_cons rule, hexec⟩

/-- The first rule that `-C` does not find is one that `-A` fails to append. -/
def FirstRefused (env : NatEnv) (k : Kernel) (steps : List (MasqueradeRule × Nat)) : Prop :=
  ∃ front x back, steps = front ++ x :: back ∧ (∀ y ∈ front, Found env k y) ∧
    ¬ Found env k x ∧ (env.append x.2).isSome

/-- `-A` works for every rule, unless `-C` runs and there is a copy of the rule among the
`known` ones or earlier in the list. -/
def AppendsWork (env : NatEnv) (known : List MasqueradeRule)
    (steps : List (MasqueradeRule × Nat)) : Prop :=
  ∀ front x back, steps = front ++ x :: back → (env.append x.2).isSome →
    env.check x.2 = none ∧ (x.1 ∈ known ∨ x.1 ∈ front.map Prod.fst)

theorem appendsWork_cons {known : List MasqueradeRule} {x : MasqueradeRule × Nat} :
    AppendsWork env known (x :: steps) ↔
      ((env.append x.2).isSome → env.check x.2 = none ∧ x.1 ∈ known) ∧
        AppendsWork env (known ++ [x.1]) steps := by
  constructor
  · intro h
    constructor
    · intro hfault
      simpa using h [] x steps rfl hfault
    · intro front y back hsplit hfault
      obtain ⟨hcheck, hmem⟩ := h (x :: front) y back (by rw [hsplit, List.cons_append]) hfault
      refine ⟨hcheck, ?_⟩
      rcases hmem with hknown | hfront
      · exact Or.inl (List.mem_append_left _ hknown)
      · rcases List.mem_cons.mp hfront with hx | hfront
        · exact Or.inl (List.mem_append_right _ (List.mem_singleton.mpr hx))
        · exact Or.inr hfront
  · rintro ⟨hhead, htail⟩ front y back hsplit hfault
    cases front with
    | nil =>
      obtain ⟨rfl, -⟩ := List.cons.inj hsplit
      obtain ⟨hcheck, hknown⟩ := hhead hfault
      exact ⟨hcheck, Or.inl hknown⟩
    | cons z front =>
      obtain ⟨rfl, hsteps⟩ := List.cons.inj hsplit
      obtain ⟨hcheck, hmem⟩ := htail front y back hsteps hfault
      refine ⟨hcheck, ?_⟩
      rcases hmem with hknown | hfront
      · rcases List.mem_append.mp hknown with hknown | hx
        · exact Or.inl hknown
        · exact Or.inr (List.mem_cons.mpr (Or.inl (List.mem_singleton.mp hx)))
      · exact Or.inr (List.mem_cons_of_mem _ hfront)

theorem appendsWork_congr {known known' : List MasqueradeRule}
    (h : ∀ r, r ∈ known ↔ r ∈ known') :
    AppendsWork env known steps ↔ AppendsWork env known' steps := by
  simp only [AppendsWork, h]

theorem firstRefused_cons {x : MasqueradeRule × Nat} :
    FirstRefused env k (x :: steps) ↔ (Found env k x ∧ FirstRefused env k steps) ∨
      (¬ Found env k x ∧ (env.append x.2).isSome) := by
  constructor
  · rintro ⟨front, y, back, hsplit, hfront, hy, hfault⟩
    cases front with
    | nil =>
      obtain ⟨rfl, -⟩ := List.cons.inj hsplit
      exact Or.inr ⟨hy, hfault⟩
    | cons z front =>
      obtain ⟨rfl, hsteps⟩ := List.cons.inj hsplit
      exact Or.inl ⟨hfront x List.mem_cons_self, front, y, back, hsteps,
        fun w hw => hfront w (List.mem_cons_of_mem x hw), hy, hfault⟩
  · rintro (⟨hx, front, y, back, rfl, hfront, hy, hfault⟩ | ⟨hx, hfault⟩)
    · exact ⟨x :: front, y, back, rfl, List.forall_mem_cons.mpr ⟨hx, hfront⟩, hy, hfault⟩
    · exact ⟨[], x, steps, rfl, by simp, hx, hfault⟩

/-- A failure that leaves the chains alone. -/
theorem fails_unchanged_iff (hsteps : ∀ x ∈ steps, x.1.WellFormed) :
    (∃ e, (installRules env steps).exec k = (fail e, k)) ↔ FirstRefused env k steps := by
  induction steps with
  | nil =>
    constructor
    · rintro ⟨e, he⟩
      cases he
    · rintro ⟨front, x, back, hsplit, -⟩
      simp at hsplit
  | cons x steps ih =>
    obtain ⟨rule, i⟩ := x
    have hrule := hsteps (rule, i) List.mem_cons_self
    have hrest : ∀ x ∈ steps, x.1.WellFormed := fun x hx => hsteps x (List.mem_cons_of_mem _ hx)
    rw [firstRefused_cons, ← ih hrest]
    by_cases hfound : Found env k (rule, i)
    · rw [exec_found hrule hfound]
      simp [hfound]
    · rcases exec_not_found hrule hfound steps with ⟨e, hfault, hfail⟩ | ⟨hnone, happend⟩
      · rw [hfail]
        simp only [hfound, hfault, false_and, not_false_eq_true, and_self, or_true, iff_true]
        exact ⟨e, rfl⟩
      · -- something was appended, and it stays
        have hchanged : ∀ e, (installRules env steps).exec (k.append rule) ≠ (fail e, k) := by
          intro e he
          have hplus : k.append rule = k.plus [rule] := by
            rw [← Kernel.plus_nil k, Kernel.plus_append, Kernel.plus_nil]
            rfl
          obtain ⟨more, -, hok | ⟨e', hfail⟩⟩ := installRules_exec env hrest k [rule]
          · rw [hplus, hok] at he
            cases he
          · rw [hplus, hfail] at he
            have hsame := (Prod.mk.inj he).2
            exact Kernel.plus_ne_self (by simp) (congrArg Kernel.chains hsame)
        rw [happend]
        constructor
        · rintro ⟨e, he⟩
          exact absurd he (hchanged e)
        · rintro (⟨hfound', -⟩ | ⟨-, hfault⟩)
          · exact absurd hfound' hfound
          · rw [hnone] at hfault
            cases hfault

/-- Without a rule of its own in the chains, the setup succeeds exactly when every append
works. -/
theorem succeeds_iff (hsteps : ∀ x ∈ steps, x.1.WellFormed) (hadded : ∀ r ∈ added, r.WellFormed)
    (hnew : ∀ x ∈ steps, k.holds x.1 = false) :
    ((installRules env steps).exec (k.plus added)).1 = .ok () ↔ AppendsWork env added steps := by
  induction steps generalizing added with
  | nil =>
    refine ⟨fun _ => ?_, fun _ => rfl⟩
    intro front x back hsplit
    simp at hsplit
  | cons x steps ih =>
    obtain ⟨rule, i⟩ := x
    have hrule := hsteps (rule, i) List.mem_cons_self
    have hrest : ∀ x ∈ steps, x.1.WellFormed := fun x hx => hsteps x (List.mem_cons_of_mem _ hx)
    have hnew' : ∀ x ∈ steps, k.holds x.1 = false := fun x hx => hnew x (List.mem_cons_of_mem _ hx)
    have hholds : (k.plus added).holds rule = true ↔ rule ∈ added := by
      rw [Kernel.holds_plus hrule hadded, hnew (rule, i) List.mem_cons_self]
      simp
    rw [appendsWork_cons]
    by_cases hfound : Found env (k.plus added) (rule, i)
    · have hmem := hholds.mp hfound.2
      have hsame : AppendsWork env (added ++ [rule]) steps ↔ AppendsWork env added steps := by
        apply appendsWork_congr
        intro r
        simp only [List.mem_append, List.mem_singleton, or_iff_left_iff_imp]
        rintro rfl
        exact hmem
      rw [exec_found hrule hfound, ih hrest hadded hnew', hsame]
      exact ⟨fun h => ⟨fun _ => ⟨hfound.1, hmem⟩, h⟩, fun h => h.2⟩
    · rcases exec_not_found hrule hfound steps with ⟨e, hfault, hfail⟩ | ⟨hnone, happend⟩
      · rw [hfail]
        constructor
        · intro h
          cases h
        · rintro ⟨hhead, -⟩
          obtain ⟨hcheck, hmem⟩ := hhead hfault
          exact absurd ⟨hcheck, hholds.mpr hmem⟩ hfound
      · have hadded' : ∀ r ∈ added ++ [rule], r.WellFormed := by
          intro r hr
          rcases List.mem_append.mp hr with hold | hnew
          · exact hadded r hold
          · rw [List.mem_singleton.mp hnew]
            exact hrule
        rw [happend, Kernel.plus_append, ih hrest hadded' hnew']
        refine ⟨fun h => ⟨?_, h⟩, fun h => h.2⟩
        intro hfault
        rw [hnone] at hfault
        cases hfault

end Reversal

section Whole

variable {env : NatEnv} {pools : List Pool} {interface : String} {k : Kernel}

/-- After a failure the chains are as before; after success they are once the guard is
dropped. -/
def Reversible (env : NatEnv) (pools : List Pool) (interface : String) (k : Kernel) : Prop :=
  match (setupNat env pools interface).exec k with
  | (.error _, t) => t.chains = k.chains
  | (.ok guard, t) => (guard.drop.exec t).2.chains = k.chains

def SysctlFails (env : NatEnv) (pools : List Pool) : Prop :=
  ∃ i < (forwardingSysctls pools).length, (env.sysctl i).isSome

theorem enableForwarding_exec (env : NatEnv) (k : Kernel) (keys : List (String × Nat)) :
    ((∃ x ∈ keys, (env.sysctl x.2).isSome) ∧ ∃ e, (enableForwarding env keys).exec k =
        (fail e, k)) ∨
      ((∀ x ∈ keys, env.sysctl x.2 = none) ∧ (enableForwarding env keys).exec k = (.ok (), k)) := by
  induction keys with
  | nil => exact Or.inr ⟨by simp, rfl⟩
  | cons x keys ih =>
    obtain ⟨key, i⟩ := x
    rw [enableForwarding]
    match hi : env.sysctl i with
    | some (.notRun e) => exact Or.inl ⟨⟨(key, i), List.mem_cons_self, by rw [hi]; rfl⟩, _, rfl⟩
    | some .failed => exact Or.inl ⟨⟨(key, i), List.mem_cons_self, by rw [hi]; rfl⟩, _, rfl⟩
    | none =>
      rcases ih with ⟨⟨y, hy, hfault⟩, hexec⟩ | ⟨hall, hexec⟩
      · exact Or.inl ⟨⟨y, List.mem_cons_of_mem _ hy, hfault⟩, hexec⟩
      · exact Or.inr ⟨List.forall_mem_cons.mpr ⟨hi, hall⟩, hexec⟩

theorem sysctlFails_iff {env : NatEnv} {pools : List Pool} :
    SysctlFails env pools ↔
      ∃ x ∈ (forwardingSysctls pools).zipIdx, (env.sysctl x.2).isSome := by
  constructor
  · rintro ⟨i, hi, hfault⟩
    exact ⟨((forwardingSysctls pools)[i], i), by simp [List.mem_zipIdx_iff_getElem?], hfault⟩
  · rintro ⟨x, hx, hfault⟩
    exact ⟨x.2, by simpa using List.snd_lt_of_mem_zipIdx hx, hfault⟩

/-- How the setup ends, by what the two loops do. -/
theorem setupNat_exec (env : NatEnv) (pools : List Pool) (interface : String) (k : Kernel) :
    (SysctlFails env pools ∧ ∃ e, (setupNat env pools interface).exec k = (fail e, k)) ∨
      (¬ SysctlFails env pools ∧ ∃ added : List MasqueradeRule,
        added.Sublist (masqueradeRules pools interface) ∧
        (((installRules env (masqueradeRules pools interface).zipIdx).exec k =
            (.ok (), k.plus added) ∧
          (setupNat env pools interface).exec k =
            (.ok ⟨masqueradeRules pools interface⟩, k.plus added)) ∨
        ∃ e, (installRules env (masqueradeRules pools interface).zipIdx).exec k =
            (fail e, k.plus added) ∧
          (setupNat env pools interface).exec k = (fail e, k.plus added))) := by
  rcases enableForwarding_exec env k (forwardingSysctls pools).zipIdx with
    ⟨hfails, e, hexec⟩ | ⟨hnone, hexec⟩
  · refine Or.inl ⟨sysctlFails_iff.mpr hfails, e, ?_⟩
    rw [setupNat, exec_bind, hexec]
    rfl
  · have hworks : ¬ SysctlFails env pools := by
      rw [sysctlFails_iff]
      rintro ⟨x, hx, hfault⟩
      rw [hnone x hx] at hfault
      cases hfault
    have hsteps : ∀ x ∈ (masqueradeRules pools interface).zipIdx, x.1.WellFormed := by
      intro x hx
      exact masqueradeRules_wellFormed pools interface x.1 (List.fst_mem_of_mem_zipIdx hx)
    obtain ⟨added, hadded, hinstall⟩ := installRules_exec env hsteps k []
    rw [List.zipIdx_map_fst] at hadded
    rw [Kernel.plus_nil, List.nil_append] at hinstall
    refine Or.inr ⟨hworks, added, hadded, ?_⟩
    rcases hinstall with hok | ⟨e, hfail⟩
    · refine Or.inl ⟨hok, ?_⟩
      rw [setupNat, exec_bind, hexec]
      simp only
      rw [exec_bind, hok]
      rfl
    · refine Or.inr ⟨e, hfail, ?_⟩
      rw [setupNat, exec_bind, hexec]
      simp only
      rw [exec_bind, hfail]
      rfl

/-- The setup can be undone exactly when a sysctl fails, or the rule that cannot be
appended is the first that would have been, or nothing fails and none of the rules was
there before. -/
theorem setupNat_reversible (env : NatEnv) (pools : List Pool) (interface : String) (k : Kernel)
    (hold : ∀ c, ∀ r ∈ k.chains c, r.added = false) :
    Reversible env pools interface k ↔
      SysctlFails env pools ∨
        FirstRefused env k (masqueradeRules pools interface).zipIdx ∨
        ((∀ rule ∈ masqueradeRules pools interface, k.holds rule = false) ∧
          AppendsWork env [] (masqueradeRules pools interface).zipIdx) := by
  have hwf := masqueradeRules_wellFormed pools interface
  have hsteps : ∀ x ∈ (masqueradeRules pools interface).zipIdx, x.1.WellFormed := by
    intro x hx
    exact hwf x.1 (List.fst_mem_of_mem_zipIdx hx)
  have hsucceeds (hnew : ∀ rule ∈ masqueradeRules pools interface, k.holds rule = false) :
      ((installRules env (masqueradeRules pools interface).zipIdx).exec k).1 = .ok () ↔
        AppendsWork env [] (masqueradeRules pools interface).zipIdx := by
    have hplus : ((installRules env (masqueradeRules pools interface).zipIdx).exec
        (k.plus [])).1 = .ok () ↔ AppendsWork env [] (masqueradeRules pools interface).zipIdx :=
      succeeds_iff hsteps (by simp) fun x hx => hnew x.1 (List.fst_mem_of_mem_zipIdx hx)
    rwa [Kernel.plus_nil] at hplus
  rcases setupNat_exec env pools interface k with ⟨hfails, e, hexec⟩ |
    ⟨hworks, added, hadded, ⟨hok, hexec⟩ | ⟨e, hfail, hexec⟩⟩
  · rw [Reversible, hexec]
    exact ⟨fun _ => Or.inl hfails, fun _ => rfl⟩
  · have hunrefused : ¬ FirstRefused env k (masqueradeRules pools interface).zipIdx := by
      rw [← fails_unchanged_iff hsteps, hok]
      rintro ⟨e, he⟩
      cases he
    rw [Reversible, hexec]
    simp only
    rw [exec_drop hwf, Kernel.foldl_delete_restores_iff hold hwf hadded]
    constructor
    · intro hnew
      exact Or.inr (Or.inr ⟨hnew, (hsucceeds hnew).mp (by rw [hok])⟩)
    · rintro (hfails | hrefused | ⟨hnew, -⟩)
      · exact absurd hfails hworks
      · exact absurd hrefused hunrefused
      · exact hnew
  · rw [Reversible, hexec]
    change (k.plus added).chains = k.chains ↔ _
    constructor
    · intro hsame
      have hnone : added = [] := by
        by_contra hne
        exact Kernel.plus_ne_self hne hsame
      rw [hnone, Kernel.plus_nil] at hfail
      exact Or.inr (Or.inl ((fails_unchanged_iff hsteps).mp ⟨e, hfail⟩))
    · rintro (hfails | hrefused | ⟨hnew, happends⟩)
      · exact absurd hfails hworks
      · obtain ⟨e', he'⟩ := (fails_unchanged_iff hsteps).mpr hrefused
        exact congrArg Kernel.chains (Prod.mk.inj (hfail.symm.trans he')).2
      · have hok := (hsucceeds hnew).mpr happends
        rw [hfail] at hok
        cases hok

def testPools : List Pool := [⟨.v4 0x0A640000#32, 24⟩, ⟨.v6 0xfd00#128, 64⟩]

def workingEnv : NatEnv := ⟨fun _ => none, fun _ => none, fun _ => none⟩

/-- A rule for another network. -/
def foreignRule : ChainRule := ⟨["-s", "192.168.0.0/16", "-j", "ACCEPT"], false⟩

def foreignKernel : Kernel := ⟨fun _ => [foreignRule]⟩

theorem setupNat_reversible_foreign : Reversible workingEnv testPools "eth0" foreignKernel := by
  refine (setupNat_reversible workingEnv testPools "eth0" foreignKernel ?_).mpr
    (Or.inr (Or.inr ⟨?_, ?_⟩))
  · intro c r hr
    rw [List.mem_singleton.mp hr]
    rfl
  · decide +kernel
  · intro front x back _ hfault
    cases hfault

/-! A rule that an administrator had set before is deleted with the guard, and a rule that
was appended before a failure stays. -/

def poolSpec : List String := ["-s", "10.100.0.0/24", "-o", "eth0", "-j", "MASQUERADE"]

def ownKernel : Kernel := ⟨fun c => if c = .iptables then [⟨poolSpec, false⟩] else []⟩

def emptyKernel : Kernel := ⟨fun _ => []⟩

def failingEnv : NatEnv :=
  ⟨fun _ => none, fun _ => none, fun i => if i = 1 then some .failed else none⟩

theorem existing_rule_deleted :
    ((setupNat workingEnv testPools "eth0").exec ownKernel).1 =
        .ok ⟨masqueradeRules testPools "eth0"⟩ ∧
      ((NatGuard.mk (masqueradeRules testPools "eth0")).drop.exec
        ((setupNat workingEnv testPools "eth0").exec ownKernel).2).2.chains .iptables = [] ∧
      ((setupNat failingEnv testPools "eth0").exec emptyKernel).1 =
        fail (.config "ip6tables -A POSTROUTING rule failed") ∧
      ((setupNat failingEnv testPools "eth0").exec emptyKernel).2.chains .iptables =
        [⟨poolSpec, true⟩] := by
  decide +kernel

end Whole

end Straw.Masquerade
