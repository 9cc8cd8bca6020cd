import SipMigrate.Proofs.Sql.Reading

/-! Statements that leave one table alone. Such a statement does the same whatever
rows the table has: it commutes with forgetting them, and with any other map that changes
the tables of that name alone, and it keeps them. -/

namespace SipMigrate.Sql

/-! ### Forgetting the rows of a table -/

theorem sameName_comm (a b : String) : sameName a b = sameName b a := by
  simp [sameName, eq_comm]

theorem sameName_trans {a b c : String} (h : sameName a b = true) :
    sameName a c = sameName b c := by
  have h : lowerAscii a = lowerAscii b := by simpa [sameName] using h
  simp [sameName, h]

variable {name : String}

/-- The table without rows, if it has the name. -/
def Table.forget (name : String) (u : Table) : Table :=
  if sameName u.name name then { u with rows := [] } else u

/-- The database with the rows of the tables of one name left out. -/
def Database.forget (name : String) (d : Database) : Database := ⟨d.tables.map (Table.forget name)⟩

namespace Table

@[simp] theorem forget_name (u : Table) : (u.forget name).name = u.name := by
  unfold forget; split <;> rfl

theorem forget_of_ne {u : Table} (h : sameName u.name name = false) : u.forget name = u := by
  simp [forget, h]

end Table

namespace Database

theorem sameName_of_table? {d : Database} {n : String} {u : Table} (h : d.table? n = some u) :
    sameName u.name n = true := by
  simpa using List.find?_some h

theorem table?_forget (d : Database) (n : String) :
    (d.forget name).table? n = (d.table? n).map (Table.forget name) := by
  simp [table?, forget, List.find?_map]

theorem table?_forget_of_ne (d : Database) {n : String} (h : sameName n name = false) :
    (d.forget name).table? n = d.table? n := by
  rw [table?_forget]
  cases hu : d.table? n with
  | none => rfl
  | some u =>
    rw [← sameName_trans (sameName_of_table? hu)] at h
    rw [Option.map_some, Table.forget_of_ne h]

theorem isSome_table?_forget (d : Database) (n : String) :
    ((d.forget name).table? n).isSome = (d.table? n).isSome := by
  rw [table?_forget, Option.isSome_map]

theorem schemaRows_forget (u : Table) : Schema.rows (u.forget name) = Schema.rows u := by
  unfold Table.forget
  split <;> rfl

theorem schema?_forget (d : Database) (n : String) :
    (d.forget name).schema? n = d.schema? n := by
  have : Schema.table (d.forget name) = Schema.table d := by
    simp [Schema.table, forget, List.flatMap_map, schemaRows_forget]
  simp [schema?, this]

/-- A name means a table of tables in every database or in none, and its proper name is
the same in all of them. -/
theorem schema?_cases (d e : Database) (n : String) :
    d.schema? n = none ∧ e.schema? n = none ∨
      ∃ u v, d.schema? n = some u ∧ e.schema? n = some v ∧ u.name = v.name := by
  unfold schema?
  split
  · exact .inr ⟨_, _, rfl, rfl, rfl⟩
  · split
    · exact .inr ⟨_, _, rfl, rfl, rfl⟩
    · exact .inl ⟨rfl, rfl⟩

theorem forget_add (d : Database) {u : Table} (h : sameName u.name name = false) :
    (d.add u).forget name = (d.forget name).add u := by
  simp [add, forget, Table.forget_of_ne h]

theorem forget_drop (d : Database) (n : String) :
    (d.drop n).forget name = (d.forget name).drop n := by
  simp [drop, forget, List.filter_map, Function.comp_def]

theorem forget_replace (d : Database) {u : Table} (h : sameName u.name name = false) :
    (d.replace u).forget name = (d.forget name).replace u := by
  simp only [replace, forget, List.map_map, Function.comp_def, Table.forget_name, mk.injEq]
  refine List.map_congr_left fun v _ => ?_
  split
  · exact Table.forget_of_ne h
  · rfl

/-! ### The tables of a name -/

/-- The tables of a name. -/
def named (d : Database) (name : String) : List Table :=
  d.tables.filter fun v => sameName v.name name

theorem table?_eq_head? (d : Database) (name : String) :
    d.table? name = (d.named name).head? := by
  rw [table?, named, List.head?_filter]

/-! They stay where another table is changed. -/

theorem named_add (d : Database) {v : Table} (h : sameName v.name name = false) :
    (d.add v).named name = d.named name := by
  simp [named, add, h]

theorem named_drop (d : Database) {n : String} (h : sameName n name = false) :
    (d.drop n).named name = d.named name := by
  simp only [named, drop, List.filter_filter]
  refine List.filter_congr fun v _ => ?_
  cases hv : sameName v.name name with
  | false => rfl
  | true =>
    rw [sameName_trans hv, sameName_comm, h]
    rfl

/-- Tables chosen by a name stand where they stood before one was put in its place. -/
theorem filter_replace (q : Bool → Bool) (d : Database) (v : Table) :
    ((d.replace v).tables.filter fun w => q (sameName w.name name)) =
      (d.tables.filter fun w => q (sameName w.name name)).map fun w =>
        if sameName w.name v.name then v else w := by
  have hp : ∀ w : Table, sameName (if sameName w.name v.name then v else w).name name =
      sameName w.name name := by
    intro w
    split
    · rename_i hw
      rw [sameName_trans hw]
    · rfl
  simp only [replace, List.filter_map, Function.comp_def, hp]

theorem named_replace (d : Database) (v : Table) :
    (d.replace v).named name =
      (d.named name).map fun w => if sameName w.name v.name then v else w :=
  filter_replace id d v

theorem named_replace_of_ne (d : Database) {v : Table} (h : sameName v.name name = false) :
    (d.replace v).named name = d.named name := by
  rw [named_replace]
  refine (List.map_congr_left fun w hw => ?_).trans (List.map_id _)
  have hw : sameName w.name name = true := (List.mem_filter.mp hw).2
  rw [sameName_trans hw, sameName_comm, h]
  rfl

/-! ### The only table of a name -/

/-- The table is there, and it is the only one of its name. -/
def Has (d : Database) (name : String) (u : Table) : Prop :=
  (d.tables.filter fun v => sameName v.name name) = [u]

theorem has_iff {d : Database} {u : Table} : d.Has name u ↔ d.named name = [u] := Iff.rfl

theorem Has.table? {d : Database} {u : Table} (h : d.Has name u) : d.table? name = some u := by
  rw [table?_eq_head?, has_iff.mp h]
  rfl

theorem Has.sameName {d : Database} {u : Table} (h : d.Has name u) :
    sameName u.name name = true := sameName_of_table? h.table?

theorem Has.eq {d : Database} {u v : Table} (h : d.Has name u) (hv : v ∈ d.tables)
    (hn : Sql.sameName v.name name = true) : v = u := by
  have : v ∈ d.tables.filter fun v => Sql.sameName v.name name := List.mem_filter.mpr ⟨hv, hn⟩
  rw [h] at this
  exact List.mem_singleton.mp this

theorem has_add_self {d : Database} {u : Table} (h : d.table? name = none)
    (hu : sameName u.name name = true) : (d.add u).Has name u := by
  have : (d.tables.filter fun v => Sql.sameName v.name name) = [] := by
    simpa [table?, List.filter_eq_nil_iff] using h
  simp [Has, add, this, hu]

/-- The table that takes the place of the only one of its name. -/
theorem Has.replace_self {d : Database} {u v : Table} (h : d.Has name u)
    (hv : Sql.sameName v.name name = true) : (d.replace v).Has name v := by
  have : Sql.sameName u.name v.name = true := by rw [sameName_trans h.sameName, sameName_comm, hv]
  rw [has_iff, named_replace, has_iff.mp h]
  simp [this]

theorem Has.forget_replace {d : Database} {u : Table} (h : d.Has name u) (rows : List Row) :
    (d.replace { u with rows := rows }).forget name = d.forget name := by
  simp only [Database.replace, forget, List.map_map, mk.injEq]
  refine List.map_congr_left fun v hv => ?_
  rw [Function.comp_apply]
  split
  · rename_i hn
    have hm : Sql.sameName v.name name = true := by
      rw [sameName_trans hn]
      exact h.sameName
    obtain rfl := h.eq hv hm
    simp [Table.forget, hm]
  · rfl

/-! ### Masks -/

/-- The map changes the tables of one name alone. -/
structure Masks (name : String) (F : Database → Database) : Prop where
  table? (d : Database) {n : String} : sameName n name = false → (F d).table? n = d.table? n
  add (d : Database) {u : Table} : sameName u.name name = false → F (d.add u) = (F d).add u
  drop (d : Database) (n : String) : F (d.drop n) = (F d).drop n
  replace (d : Database) {u : Table} :
    sameName u.name name = false → F (d.replace u) = (F d).replace u

theorem masks_forget : Masks name (forget name) :=
  ⟨table?_forget_of_ne, forget_add, forget_drop, forget_replace⟩

theorem masks_drop : Masks name fun d => d.drop name where
  table? d n h := by
    simp only [Database.table?, Database.drop, List.find?_filter]
    congr 1
    funext v
    cases hv : sameName v.name n with
    | false => simp
    | true => simp [sameName_trans hv, h]
  add d u h := by simp [Database.add, Database.drop, h]
  drop d n := by simp only [Database.drop, List.filter_filter, Bool.and_comm]
  replace d u _ := congrArg Database.mk (filter_replace not d u)

end Database

/-! ### Statements and plans -/

/-- A statement that is none of a transaction and neither changes nor reads the
table of a name. It may look at the tables of tables, which do not show rows. -/
def Statement.Avoids (name : String) : Statement → Prop
  | createTable _ _ _ _ _ => True
  | dropTable _ n => sameName n.text name = false
  | insert n _ _ => sameName n.text name = false
  | delete n _ => sameName n.text name = false
  | update n _ _ => sameName n.text name = false
  | select _ n _ => ∀ m ∈ n, sameName m.text name = false
  | begin => False
  | commit => False
  | rollback => False

instance : (s : Statement) → Decidable (s.Avoids name)
  | .createTable _ _ _ _ _ => isTrue trivial
  | .dropTable _ n => inferInstanceAs (Decidable (sameName n.text name = false))
  | .insert n _ _ => inferInstanceAs (Decidable (sameName n.text name = false))
  | .delete n _ => inferInstanceAs (Decidable (sameName n.text name = false))
  | .update n _ _ => inferInstanceAs (Decidable (sameName n.text name = false))
  | .select _ n _ => inferInstanceAs (Decidable (∀ m ∈ n, sameName m.text name = false))
  | .begin => isFalse id
  | .commit => isFalse id
  | .rollback => isFalse id

/-- A plan that leaves the table of a name alone and is none of a transaction. -/
def Plan.Spares (name : String) : Plan → Prop
  | nothing => True
  | create u => sameName u.name name = false
  | drop n => sameName n name = false
  | insert u _ => sameName u.name name = false
  | delete u _ => sameName u.name name = false
  | update u _ _ => sameName u.name name = false
  | select _ _ _ => True
  | begin => False
  | commit => False
  | rollback => False

namespace Name

variable {d e : Database} {n : Name}

theorem table_congr (hs : d.schema? n.text = e.schema? n.text)
    (ht : d.table? n.text = e.table? n.text) : n.table d = n.table e := by
  rw [table, table, Database.readable?, Database.readable?, hs, ht]

theorem changeable_congr (h : d.table? n.text = e.table? n.text) :
    n.changeable d = n.changeable e := by
  unfold changeable
  rcases Database.schema?_cases d e n.text with ⟨hd, he⟩ | ⟨u, v, hd, he, huv⟩
  · rw [hd, he]
    exact table_congr (hd.trans he.symm) h
  · rw [hd, he]
    dsimp only
    rw [huv]

/-- A table whose rows can be changed has the name by which it is looked up. -/
theorem sameName_of_changeable {n : Name} {d : Database} {u : Table}
    (h : n.changeable d = .ok u) : sameName u.name n.text = true := by
  unfold changeable at h
  split at h
  · cases h
  · rename_i hs
    unfold table Database.readable? at h
    rw [hs, Option.none_or] at h
    split at h
    · rename_i hu
      cases h
      exact Database.sameName_of_table? hu
    · cases h

end Name

/-- The name of the table that a statement creates. -/
def Statement.created? : Statement → Option Name
  | createTable _ n _ _ _ => some n
  | _ => none

/-- The name of the table that a statement reads. -/
def Statement.read? : Statement → Option Name
  | select _ n _ => n
  | _ => none

/-- A statement means the same in two databases in which it finds the same. -/
theorem plan_congr {s : Statement} {d e : Database} (h : s.Avoids name)
    (ht : ∀ n, sameName n name = false → d.table? n = e.table? n)
    (hc : ∀ n ∈ s.created?, (d.table? n.text).isSome = (e.table? n.text).isSome)
    (hr : ∀ n ∈ s.read?, d.schema? n.text = e.schema? n.text) : s.plan d = s.plan e := by
  cases s with
  | createTable ifMissing n parts stop text =>
    simp only [Statement.plan, planCreate, hc n rfl]
  | dropTable ifPresent n =>
    simp only [Statement.plan, planDrop, ht n.text h]
    rcases Database.schema?_cases d e n.text with ⟨hd, he⟩ | ⟨u, v, hd, he, huv⟩
    · rw [hd, he]
    · rw [hd, he]
      dsimp only
      rw [huv]
  | insert n columns rows =>
    simp only [Statement.plan, planInsert, Name.changeable_congr (ht n.text h)]
  | delete n filter => simp only [Statement.plan, planDelete, Name.changeable_congr (ht n.text h)]
  | update n changes filter =>
    simp only [Statement.plan, planUpdate, Name.changeable_congr (ht n.text h)]
  | select results n filter =>
    cases n with
    | none => rfl
    | some m =>
      have hm := Name.table_congr (hr m rfl) (ht m.text (h m rfl))
      simp only [Statement.plan, planSelect, Option.mapM_some, hm]
  | begin => rfl
  | commit => rfl
  | rollback => rfl

theorem plan_forget {s : Statement} (h : s.Avoids name) (d : Database) :
    s.plan (d.forget name) = s.plan d :=
  plan_congr h (fun _ hn => d.table?_forget_of_ne hn) (fun n _ => d.isSome_table?_forget n.text)
    fun n _ => d.schema?_forget n.text

theorem Database.table?_congr (d : Database) {a b : String} (h : sameName a b = true) :
    d.table? a = d.table? b := by
  have (u : Table) : sameName u.name a = sameName u.name b := by
    rw [sameName_comm, sameName_trans h, sameName_comm]
  simp only [table?, this]

/-- A table is created only where there is none of its name. -/
theorem planCreate_eq_ok {d : Database} {ifMissing : Bool} {n : Name} {parts : List Definition}
    {stop : Option Fault} {text : String} {p : Plan}
    (hp : planCreate d ifMissing n parts stop text = .ok p) :
    p = .nothing ∨ d.table? n.text = none ∧ ∃ u : Table, u.name = n.text ∧ p = .create u := by
  cases stop with
  | some f =>
    simp only [planCreate] at hp
    grind
  | none =>
    simp only [planCreate, Option.isSome_iff_ne_none] at hp
    grind

theorem planInsert_eq_ok {d : Database} {n : Name} {columns : Option (List Name)}
    {rows : List (List Operand)} {p : Plan} (hp : planInsert d n columns rows = .ok p) :
    ∃ u values, n.changeable d = .ok u ∧ p = .insert u values := by
  simp only [planInsert, bind, Except.bind, throw, throwThe, MonadExceptOf.throw, pure,
    Except.pure] at hp
  cases hu : n.changeable d with
  | error f =>
    rw [hu] at hp
    cases hp
  | ok u =>
    rw [hu] at hp
    refine ⟨u, ?_⟩
    grind

theorem planDelete_eq_ok {d : Database} {n : Name} {filter : Option Condition} {p : Plan}
    (hp : planDelete d n filter = .ok p) :
    ∃ u test, n.changeable d = .ok u ∧ p = .delete u test := by
  simp only [planDelete, bind, Except.bind, pure, Except.pure] at hp
  grind

theorem planUpdate_eq_ok {d : Database} {n : Name} {changes : List (Name × Operand)}
    {filter : Option Condition} {p : Plan} (hp : planUpdate d n changes filter = .ok p) :
    ∃ u terms test, n.changeable d = .ok u ∧ p = .update u terms test := by
  simp only [planUpdate, bind, Except.bind, throw, throwThe, MonadExceptOf.throw, pure,
    Except.pure] at hp
  grind

theorem planSelect_eq_ok {d : Database} {results : List ResultColumn} {n : Option Name}
    {filter : Option Condition} {p : Plan} (hp : planSelect d results n filter = .ok p) :
    ∃ u outs test, p = .select u outs test := by
  simp only [planSelect, bind, Except.bind, throw, throwThe, MonadExceptOf.throw, pure,
    Except.pure] at hp
  grind

/-- A statement that avoids a table spares it, unless it creates one of its name. -/
theorem plan_spares_of_created {s : Statement} (h : s.Avoids name) {d : Database} {p : Plan}
    (hc : ∀ n ∈ s.created?, d.table? n.text = none → sameName n.text name = false)
    (hp : s.plan d = .ok p) : p.Spares name := by
  have hname {n : Name} {u : Table} (hn : sameName n.text name = false)
      (hu : n.changeable d = .ok u) : sameName u.name name = false := by
    rw [sameName_trans (Name.sameName_of_changeable hu), hn]
  cases s with
  | createTable ifMissing n parts stop text =>
    rcases planCreate_eq_ok hp with rfl | ⟨hn, u, hu, rfl⟩
    · trivial
    · show sameName u.name name = false
      rw [hu]
      exact hc n rfl hn
  | dropTable ifPresent n =>
    simp only [Statement.plan, planDrop] at hp
    split at hp
    · cases hp
    · rename_i u _ hu
      cases hp
      show sameName u.name name = false
      rw [sameName_trans (Database.sameName_of_table? hu)]
      exact h
    · split at hp <;> cases hp
      trivial
  | insert n columns rows =>
    obtain ⟨u, values, hu, rfl⟩ := planInsert_eq_ok hp
    exact hname h hu
  | delete n filter =>
    obtain ⟨u, test, hu, rfl⟩ := planDelete_eq_ok hp
    exact hname h hu
  | update n changes filter =>
    obtain ⟨u, terms, test, hu, rfl⟩ := planUpdate_eq_ok hp
    exact hname h hu
  | select results n filter =>
    obtain ⟨u, outs, test, rfl⟩ := planSelect_eq_ok hp
    trivial
  | begin => exact h.elim
  | commit => exact h.elim
  | rollback => exact h.elim

theorem plan_spares {s : Statement} (h : s.Avoids name) {d : Database} {p : Plan}
    (hd : (d.table? name).isSome = true) (hp : s.plan d = .ok p) : p.Spares name := by
  refine plan_spares_of_created h (fun n _ hn => ?_) hp
  rw [← Bool.not_eq_true]
  intro hname
  rw [← d.table?_congr hname, hn] at hd
  cases hd

/-- A statement that begins or ends a transaction. -/
def Statement.isControl : Statement → Bool
  | begin => true
  | commit => true
  | rollback => true
  | _ => false

theorem Statement.Avoids.isControl {s : Statement} (h : s.Avoids name) : s.isControl = false := by
  cases s with
  | begin | commit | rollback => exact h.elim
  | createTable | dropTable | insert | delete | update | select => rfl

/-- A plan that begins or ends a transaction. -/
def Plan.isControl : Plan → Bool
  | begin => true
  | commit => true
  | rollback => true
  | _ => false

theorem isControl_of_plan {s : Statement} (h : s.isControl = false) {d : Database} {p : Plan}
    (hp : s.plan d = .ok p) : p.isControl = false := by
  cases s with
  | createTable ifMissing n parts stop text =>
    rcases planCreate_eq_ok hp with rfl | ⟨-, u, -, rfl⟩ <;> rfl
  | dropTable ifPresent n =>
    simp only [Statement.plan, planDrop] at hp
    grind [Plan.isControl]
  | insert n columns rows =>
    obtain ⟨u, values, -, rfl⟩ := planInsert_eq_ok hp
    rfl
  | delete n filter =>
    obtain ⟨u, test, -, rfl⟩ := planDelete_eq_ok hp
    rfl
  | update n changes filter =>
    obtain ⟨u, terms, test, -, rfl⟩ := planUpdate_eq_ok hp
    rfl
  | select results n filter =>
    obtain ⟨u, outs, test, rfl⟩ := planSelect_eq_ok hp
    rfl
  | begin | commit | rollback => cases h

/-! What a plan does keeps the name of the table. -/

theorem name_of_insertRow {u v : Table} {r : Row} (h : u.insertRow r = .ok v) :
    v.name = u.name := by
  simp only [Table.insertRow, bind, Except.bind, pure, Except.pure] at h
  grind

theorem name_of_insertRows {u v : Table} {rows : List Row} (h : u.insertRows rows = .ok v) :
    v.name = u.name := by
  induction rows generalizing u with
  | nil =>
    cases h
    rfl
  | cons r rest ih =>
    simp only [Table.insertRows, bind, Except.bind] at h
    cases hr : u.insertRow r with
    | error e =>
      rw [hr] at h
      cases h
    | ok w =>
      rw [hr] at h
      rw [ih h, name_of_insertRow hr]

theorem name_of_updateRows {u v : Table} {hit : Row → Bool} {f : Row → Row}
    (h : u.updateRows hit f = .ok v) : v.name = u.name := by
  simp only [Table.updateRows, bind, Except.bind, pure, Except.pure] at h
  grind

/-- Masking a table that a plan spares commutes with running the plan. -/
theorem run_mask {F : Database → Database} (hF : Database.Masks name F) {p : Plan}
    (h : p.Spares name) (d : Database) :
    p.run (F d) = (p.run d).map fun r => (F r.1, r.2) := by
  cases p with
  | nothing => rfl
  | create u =>
    simp only [Plan.run]
    split
    · rw [← hF.add d h]
      rfl
    · rfl
  | drop n =>
    simp only [Plan.run, ← hF.drop]
    rfl
  | insert u rows =>
    show (u.insertRows rows >>= fun v => _) = Except.map _ (u.insertRows rows >>= fun v => _)
    cases hv : u.insertRows rows with
    | error e => rfl
    | ok v =>
      have hv : sameName v.name name = false := by rwa [name_of_insertRows hv]
      exact congrArg (fun x => Except.ok (x, none)) (hF.replace d hv).symm
  | delete u test =>
    have hv : sameName (u.deleteRows (passes test)).name name = false := h
    exact congrArg (fun x => Except.ok (x, none)) (hF.replace d hv).symm
  | update u changes test =>
    show (u.updateRows _ _ >>= fun v => _) = Except.map _ (u.updateRows _ _ >>= fun v => _)
    cases hv : u.updateRows (passes test) (change changes) with
    | error e => rfl
    | ok v =>
      have hv : sameName v.name name = false := by rwa [name_of_updateRows hv]
      exact congrArg (fun x => Except.ok (x, none)) (hF.replace d hv).symm
  | select u outs test =>
    show (select u outs test >>= fun a => _) = Except.map _ (select u outs test >>= fun a => _)
    cases select u outs test <;> rfl
  | begin => exact h.elim
  | commit => exact h.elim
  | rollback => exact h.elim

/-- A plan does the same to databases that differ at most in a table that it spares. -/
theorem run_congr {F : Database → Database} (hF : Database.Masks name F) {p : Plan}
    (hp : p.Spares name) {d e : Database} (h : F d = F e) :
    (∃ cause, p.run d = .error cause ∧ p.run e = .error cause) ∨
      ∃ d' e' a, p.run d = .ok (d', a) ∧ p.run e = .ok (e', a) ∧ F d' = F e' := by
  have hrun : (p.run d).map (fun r => (F r.1, r.2)) = (p.run e).map fun r => (F r.1, r.2) := by
    rw [← run_mask hF hp, ← run_mask hF hp, h]
  rcases hd : p.run d with cause | ⟨d', a⟩ <;> rcases he : p.run e with cause' | ⟨e', b⟩ <;>
    rw [hd, he] at hrun
  · obtain rfl : cause = cause' := by simpa [Except.map] using hrun
    exact .inl ⟨cause, rfl, rfl⟩
  · cases hrun
  · cases hrun
  · obtain ⟨hmask, rfl⟩ : F d' = F e' ∧ a = b := by simpa [Except.map] using hrun
    exact .inr ⟨d', e', a, rfl, rfl, hmask⟩

/-- The tables that a plan spares are there afterwards as they were. -/
theorem run_named {p : Plan} (h : p.Spares name) {d d' : Database} {a : Answer}
    (hp : p.run d = .ok (d', a)) : d'.named name = d.named name := by
  cases p with
  | nothing =>
    cases hp
    rfl
  | create v =>
    simp only [Plan.run] at hp
    split at hp <;> cases hp
    exact d.named_add h
  | drop n =>
    cases hp
    exact d.named_drop h
  | insert v rows =>
    simp only [Plan.run, bind, Except.bind] at hp
    split at hp
    · cases hp
    · rename_i hv
      cases hp
      exact d.named_replace_of_ne (by rwa [name_of_insertRows hv])
  | delete v test =>
    cases hp
    exact d.named_replace_of_ne h
  | update v changes test =>
    simp only [Plan.run, bind, Except.bind] at hp
    split at hp
    · cases hp
    · rename_i hv
      cases hp
      exact d.named_replace_of_ne (by rwa [name_of_updateRows hv])
  | select v outs test =>
    simp only [Plan.run, bind, Except.bind] at hp
    split at hp <;> cases hp
    rfl
  | begin => exact h.elim
  | commit => exact h.elim
  | rollback => exact h.elim

theorem run_has {p : Plan} (h : p.Spares name) {d d' : Database} {a : Answer} {u : Table}
    (hd : d.Has name u) (hp : p.run d = .ok (d', a)) : d'.Has name u :=
  (run_named h hp).trans hd

end SipMigrate.Sql
