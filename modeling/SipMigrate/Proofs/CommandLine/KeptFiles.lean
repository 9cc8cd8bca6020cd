import SipMigrate.Proofs.CommandLine.DryRun
import SipMigrate.Proofs.Files.Places
import SipMigrate.Proofs.Migration.Looking

/-! What commands that look at a database leave behind. They ask it without changing it, but
the database has to be opened first, and that can recover it from what was left beside it, or
make a file. A command makes sure before that something stands at the path that it is given;
yet a text that begins with `file:` is a path then and an address when the database is opened,
and the two can mean different places. -/

namespace SipMigrate.CommandLine

open Files Sql Executor Migration ControlTable

variable {w : World} {files : FileTree} {text : String} {a : Address} {p : Place}
  {o : OpenDatabase} {c : Connection} {t : TableName} {α : Type}

/-! ### Asking without changing -/

/-- A look at the control table changes nothing where no transaction is open. -/
theorem peek_stays {ev : Event} {mayFail : Call → Prop} {c' : Connection} (hw : c.working = none)
    (h : Peeks t ev.call) (hp : Passes database mayFail c ev c') : c' = c := by
  obtain ⟨call, answer⟩ := ev
  cases call with
  | query sql =>
    obtain ⟨complete, rc, hr⟩ := readsQuery_of_mem h
    exact hp.query.elim id fun hc => hc.trans (hr.query_snd hw)
  | tableExists name => exact hp.tableExists
  | execute | begin | commit | rollback => exact h.elim

theorem run_snd_of_peeks {q : Run Connection α} (hq : Run.Asks database (Peeks t) q)
    (hw : c.working = none) : (q.run c).2 = c := by
  obtain ⟨l, hl, hpeeks⟩ := hq c
  have htrail : Trail database (fun _ => False) c l (q.run c).2 := .of_trace hl
  exact htrail.stays (fun _ _ => peek_stays hw) hpeeks

/-- A computation that looks at the control table of an open database leaves the files as
they are once the database is open. -/
theorem OpenDatabase.ask_snd {f : {σ : Type} → Executor σ → Run σ α}
    (hf : Run.Asks database (Peeks t) (f database))
    (hw : ∀ c, o.handle = .sound c → c.working = none) : (o.ask f).2 = o.files := by
  unfold ask
  cases ho : o.handle with
  | refusing cause => rfl
  | sound c =>
    have hc := run_snd_of_peeks hf (hw c ho)
    dsimp only
    rcases hr : (f database).run c with ⟨r, after⟩
    rw [hr] at hc
    obtain rfl : after = c := hc
    cases o.place with
    | none => rfl
    | some p => exact congrArg Prod.snd (if_pos rfl)

/-! ### Opening -/

/-- The address in a text leads to a place where nothing stands, and to open the database
makes a file there. -/
structure Makes (files : FileTree) (text : String) (a : Address) (p : Place) : Prop where
  address : Address.ofText text = .ok a
  isPassing : a.isPassing = false
  mode : a.mode = .making
  place : files.shortened a.path = .ok p
  way : (files.look p).isOk = true
  missing : files.node? p = none

/-- Nothing was left beside the database that a text leads to, or it never changes. -/
def World.IsSettled (w : World) (text : String) : Prop :=
  ∀ a p, Address.ofText text = .ok a → w.files.shortened a.path = .ok p →
    a.isFixed = true ∨ hasLeftover w.files p = false

/-- The files once a database is open. -/
def World.opened (w : World) (text : String) : FileTree :=
  match openDatabase w text with
  | .ok o => o.files
  | .error _ => w.files

theorem isFilled_set_of_ne {n : Node Content} {q : Place} (h : q ≠ p) :
    isFilled (files.set p n) q = isFilled files q := by
  rw [isFilled, isFilled, Tree.node?_set_of_ne h]

/-- What stands at the place of a database was not left beside it. -/
theorem hasLeftover_set {n : Node Content} (h : files.node? p = none) :
    hasLeftover (files.set p n) p = hasLeftover files p := by
  have hp : p ≠ [] := by
    rintro rfl
    cases h
  have hjournal : journalPlace p ≠ p := Tree.beside_ne hp (by decide)
  have hlog : logPlace p ≠ p := Tree.beside_ne hp (by decide)
  rw [hasLeftover, hasLeftover, isFilled_set_of_ne hjournal, isFilled_set_of_ne hlog]

theorem working_ofDatabase {access : Access} {d : Except Cause Database}
    (h : Handle.ofDatabase access d = .sound c) : c.working = none := by
  cases d with
  | error cause => cases h
  | ok d =>
    cases h
    rfl

theorem working_openFile {content : Content}
    (hc : (openFile w files a p content).handle = .sound c) : c.working = none := by
  unfold openFile at hc
  split at hc <;> exact working_ofDatabase hc

theorem files_openFile {content : Content} (h : a.isFixed = true ∨ hasLeftover files p = false) :
    (openFile w files a p content).files = files := by
  have hleft : (!a.isFixed && hasLeftover files p) = false := by
    rcases h with h | h <;> simp [h]
  rw [openFile, if_neg (by rw [hleft]; exact Bool.false_ne_true)]

theorem working_openPlace (h : openPlace w a p = some o) (hc : o.handle = .sound c) :
    c.working = none := by
  unfold openPlace at h
  split at h
  · cases h
  · cases h
    exact working_openFile hc
  · split at h
    · cases h
      cases hc
    · cases h
  · split at h
    · cases h
      exact working_openFile hc
    · cases h

/-- A database that is opened at a place is made if nothing stands there. -/
theorem files_openPlace (hs : a.isFixed = true ∨ hasLeftover w.files p = false)
    (h : openPlace w a p = some o) :
    (w.files.node? p ≠ none ∧ o.files = w.files) ∨
      ((w.files.look p).isOk = true ∧ w.files.node? p = none ∧ a.mode = .making ∧
        o.files = w.files.set p (.file (.bytes []))) := by
  unfold openPlace at h
  split at h
  · cases h
  · rename_i hnode
    cases h
    exact .inl ⟨by simp [hnode], files_openFile hs⟩
  · rename_i hnode
    split at h
    · cases h
      exact .inl ⟨by simp [hnode], rfl⟩
    · cases h
  · rename_i hlook hnode
    split at h
    · cases h
      rw [← hasLeftover_set hnode] at hs
      exact .inr ⟨by rw [hlook]; rfl, hnode, ‹_›, files_openFile hs⟩
    · cases h

theorem openDatabase_of_passing (ha : Address.ofText text = .ok a) (hp : a.isPassing = true) :
    openDatabase w text = .ok ⟨.sound { Connection.start .empty with
      access := if a.isReadOnly then .readOnly else .full }, none, w.files⟩ := by
  simp [openDatabase, ha, Except.mapError, hp]

theorem openDatabase_of_place (ha : Address.ofText text = .ok a) (hp : a.isPassing = false)
    (hs : w.files.shortened a.path = .ok p) :
    openDatabase w text =
      (openPlace w a p).elim (.error (.failure (.cannotOpen text))) .ok := by
  simp only [openDatabase, ha, Except.mapError, ok_bind, hp, hs, Bool.false_eq_true, if_false]
  cases openPlace w a p <;> rfl

/-- Every database that is opened is at no place, or at the place that its address leads to. -/
theorem openDatabase_cases (h : openDatabase w text = .ok o) :
    ∃ a, Address.ofText text = .ok a ∧
      ((a.isPassing = true ∧ o.files = w.files ∧ ∀ c, o.handle = .sound c → c.working = none) ∨
        (a.isPassing = false ∧
          ∃ p, w.files.shortened a.path = .ok p ∧ openPlace w a p = some o)) := by
  cases ha : Address.ofText text with
  | error e => simp [openDatabase, ha, Except.mapError] at h
  | ok a =>
    refine ⟨a, rfl, ?_⟩
    cases hp : a.isPassing with
    | true =>
      rw [openDatabase_of_passing ha hp] at h
      cases h
      refine .inl ⟨rfl, rfl, ?_⟩
      rintro c ⟨⟩
      rfl
    | false =>
      refine .inr ⟨rfl, ?_⟩
      cases hs : w.files.shortened a.path with
      | error e => simp [openDatabase, ha, Except.mapError, hp, hs] at h
      | ok p =>
        rw [openDatabase_of_place ha hp hs] at h
        cases ho : openPlace w a p with
        | none =>
          rw [ho] at h
          cases h
        | some o' =>
          rw [ho] at h
          cases h
          exact ⟨p, rfl, ho⟩

theorem working_openDatabase (h : openDatabase w text = .ok o) (hc : o.handle = .sound c) :
    c.working = none := by
  obtain ⟨a, -, ⟨-, -, hw⟩ | ⟨-, p, -, ho⟩⟩ := openDatabase_cases h
  · exact hw c hc
  · exact working_openPlace ho hc

theorem Makes.eq {a' : Address} {p' : Place} (h : Makes files text a p)
    (h' : Makes files text a' p') : a' = a ∧ p' = p := by
  obtain rfl : a = a' := Except.ok.inj (h.address.symm.trans h'.address)
  exact ⟨rfl, Except.ok.inj (h'.place.symm.trans h.place)⟩

/-- To open a database beside which nothing was left keeps the files as they are, or makes one. -/
theorem files_openDatabase (hsettled : w.IsSettled text) (h : openDatabase w text = .ok o) :
    ((∀ a p, ¬Makes w.files text a p) ∧ o.files = w.files) ∨
      ∃ a p, Makes w.files text a p ∧ o.files = w.files.set p (.file (.bytes [])) := by
  obtain ⟨a, ha, ⟨hp, hfiles, -⟩ | ⟨hp, p, hs, ho⟩⟩ := openDatabase_cases h
  · refine .inl ⟨fun a' p hm => ?_, hfiles⟩
    obtain rfl : a = a' := Except.ok.inj (ha.symm.trans hm.address)
    exact Bool.false_ne_true (hm.isPassing.symm.trans hp)
  · rcases files_openPlace (hsettled a p ha hs) ho with
      ⟨hthere, hfiles⟩ | ⟨hway, hmissing, hmode, hfiles⟩
    · refine .inl ⟨fun a' p' hm => hthere ?_, hfiles⟩
      obtain rfl : a = a' := Except.ok.inj (ha.symm.trans hm.address)
      obtain rfl : p = p' := Except.ok.inj (hs.symm.trans hm.place)
      exact hm.missing
    · exact .inr ⟨a, p, ⟨ha, hp, hmode, hs, hway, hmissing⟩, hfiles⟩

theorem Makes.opens (h : Makes w.files text a p) : ∃ o, openDatabase w text = .ok o := by
  have hplace : ∃ o, openPlace w a p = some o := by
    cases hlook : w.files.look p with
    | error e =>
      have := h.way
      rw [hlook] at this
      cases this
    | ok q => simp [openPlace, hlook, h.missing, h.mode]
  obtain ⟨o, ho⟩ := hplace
  refine ⟨o, ?_⟩
  rw [openDatabase_of_place h.address h.isPassing h.place, ho]
  rfl

theorem opened_of_settled (hs : w.IsSettled text) :
    ((∀ a p, ¬Makes w.files text a p) ∧ w.opened text = w.files) ∨
      ∃ a p, Makes w.files text a p ∧ w.opened text = w.files.set p (.file (.bytes [])) := by
  unfold World.opened
  cases ho : openDatabase w text with
  | ok o => exact files_openDatabase hs ho
  | error e =>
    refine .inl ⟨fun a p hm => ?_, rfl⟩
    obtain ⟨o, hok⟩ := hm.opens
    rw [ho] at hok
    cases hok

/-- A path at which something stands is not made, if it is an address without options. -/
theorem Makes.not_of_hasPath (hpath : files.hasPath text = true)
    (h : "file:".toList.isPrefixOf text.toList = false) : ¬Makes files text a p := by
  intro hm
  obtain ⟨q, n, hq, hn⟩ := Tree.exists_node_of_hasPath hpath
  have ha : Address.ofText text = .ok (.ofPath text) := by
    rw [Address.ofText, h]
    rfl
  obtain rfl : Address.ofPath text = a := Except.ok.inj (ha.symm.trans hm.address)
  obtain rfl : p = q := Tree.shortened_eq_of_place hq hm.place
  have := hm.missing
  rw [hn] at this
  cases this

/-! ### Commands -/

theorem lookAt_peeks {σ : Type} (x : Executor σ) (directory : Option String) :
    Run.Asks x (Peeks t) (lookAt w t directory x) := by
  refine .bind (status_peeks x t) fun s => ?_
  cases directory with
  | none => exact .pure _
  | some d =>
    exact .bind (.ofExcept _) fun steps => .bind (pending_peeks x t steps) fun due => .pure _

/-- After a look at a database the files are as they are once the database is open. -/
theorem files_askDatabase {f : FileTree → {σ : Type} → Executor σ → Run σ α} {g : α → String}
    (hf : ∀ files, Run.Asks database (Peeks t) (f files database)) :
    (askDatabase w text f g).files = w.opened text := by
  unfold askDatabase World.opened
  cases ho : openDatabase w text with
  | error e => rfl
  | ok o => exact OpenDatabase.ask_snd (hf o.files) fun c => working_openDatabase ho

namespace Command

/-- The database of a command that is there to look at it. -/
def lookedAt? : Command → Option String
  | status database _ _ _ => some database
  | migrate database _ _ true => some database
  | _ => none

/-- A command that looks at a database comes to the point of opening it: something stands at
the path, and the name of the table and the directory, if the command lists it before, are in
order. -/
def Opens (w : World) : Command → Prop
  | status database _ table _ =>
    w.files.hasPath database = true ∧ ∃ t, TableName.ofString table = .ok t
  | migrate database directory table true =>
    w.files.hasPath database = true ∧ (∃ t, TableName.ofString table = .ok t) ∧
      ∃ steps, w.steps directory = .ok steps
  | _ => False

theorem Opens.hasPath {c : Command} (h : c.Opens w) (hc : c.lookedAt? = some text) :
    w.files.hasPath text = true := by
  cases c with
  | status =>
    cases hc
    exact h.1
  | migrate database directory table dry =>
    cases dry
    · cases hc
    · cases hc
      exact h.1
  | hash | keygen | version => cases hc

theorem files_of_not_opens {c : Command} (hc : c.lookedAt? = some text) (ho : ¬c.Opens w) :
    (c.run w).files = w.files := by
  cases c with
  | status database directory table format =>
    show (showStatus w database directory table format).files = w.files
    unfold showStatus
    split
    · cases ht : TableName.ofString table with
      | error e => rfl
      | ok t => exact absurd ⟨‹_›, t, ht⟩ ho
    · rfl
  | migrate database directory table dry =>
    cases dry with
    | false => cases hc
    | true =>
      show (runMigrations w database directory table true).files = w.files
      unfold runMigrations
      cases ht : TableName.ofString table with
      | error e => rfl
      | ok t =>
        cases hs : w.steps directory with
        | error e => rfl
        | ok steps =>
          dsimp only
          rw [if_pos rfl, dryRun, if_neg fun hpath => ho ⟨hpath, ⟨t, ht⟩, steps, hs⟩]
  | hash | keygen | version => cases hc

/-- A command that opens a database to look at it leaves the files as they are then. -/
theorem files_of_opens {c : Command} (hc : c.lookedAt? = some text) (ho : c.Opens w) :
    (c.run w).files = w.opened text := by
  cases c with
  | status database directory table format =>
    cases hc
    obtain ⟨hpath, t, ht⟩ := ho
    simp only [run, showStatus, hpath, ht, if_true]
    exact files_askDatabase fun _ => lookAt_peeks database directory
  | migrate database directory table dry =>
    cases dry with
    | false => cases hc
    | true =>
      cases hc
      obtain ⟨hpath, ⟨t, ht⟩, steps, hs⟩ := ho
      simp only [run, runMigrations, dryRun, hpath, ht, hs, if_true]
      exact files_askDatabase fun _ => pending_peeks database t steps
  | hash | keygen | version => cases hc

theorem files_of_settled {c : Command} (hc : c.lookedAt? = some text) (hs : w.IsSettled text) :
    (¬(c.Opens w ∧ ∃ a p, Makes w.files text a p) ∧ (c.run w).files = w.files) ∨
      (c.Opens w ∧ ∃ a p, Makes w.files text a p ∧
        (c.run w).files = w.files.set p (.file (.bytes []))) := by
  by_cases ho : c.Opens w
  · rw [c.files_of_opens hc ho]
    exact (opened_of_settled hs).imp
      (fun ⟨hno, hsame⟩ => ⟨fun ⟨_, a, p, hm⟩ => hno a p hm, hsame⟩) fun hmade => ⟨ho, hmade⟩
  · exact .inl ⟨fun hmakes => ho hmakes.1, c.files_of_not_opens hc ho⟩

end Command

/-! ### Runs that fail before they open the database -/

/-- A failure that lies in the arguments of a run: in the name of the table, in the directory
or in the name of a script. -/
def isOfArguments : MigrationError → Bool
  | .invalidTableName _ => true
  | .directoryRead _ _ => true
  | .invalidFileName _ => true
  | _ => false

theorem isOfArguments_of_apply {σ : Type} {x : Executor σ} {v : Surroundings} {steps : List Step}
    {s : σ} {e : MigrationError} (h : ((apply x t v steps).run s).1 = .error e) :
    isOfArguments e = false := by
  obtain ⟨l, -, hcourse⟩ := apply_course x t v steps s
  rw [h] at hcourse
  cases hcourse with
  | notOpened h => cases h <;> rfl
  | opened _ h =>
    obtain ⟨_, _, _, _, -, -, -, -, hend⟩ := h.bracketed
    cases hend with
    | refused | unreadable => rfl
    | interrupted _ _ _ hl => cases hl <;> rfl

theorem isOfArguments_of_applyTo {steps : List Step} {e : MigrationError}
    (h : (applyTo w text t steps).output = .error (.migration e)) : isOfArguments e = false := by
  unfold applyTo askDatabase at h
  cases ho : openDatabase w text with
  | error e =>
    rw [ho] at h
    cases h
  | ok o =>
    rw [ho] at h
    have hask : (o.ask fun x => apply x t w.surroundings steps).1 = .error e := by
      dsimp only at h
      cases hr : (o.ask fun x => apply x t w.surroundings steps).1 with
      | ok report => simp [hr, Except.mapError, Except.map] at h
      | error e' =>
        simp only [hr, Except.mapError, Except.map] at h
        cases h
        rfl
    cases hh : o.handle with
    | refusing cause =>
      simp only [OpenDatabase.ask, hh] at hask
      exact isOfArguments_of_apply hask
    | sound c =>
      rw [o.ask_fst hh] at hask
      exact isOfArguments_of_apply hask

/-- A command that shows the status of a database or lists what a run would apply does nothing
to the files but to open the database. If no changes were left beside it, all files are kept,
unless something stands at the path that the command is given and that path as an address leads
to a place where nothing stands: there an empty file is made. So what is there is never changed,
and nothing is changed if the path does not begin with `file:`. Neither does a run change
anything whose arguments are at fault. Behind this is that the status and the pending steps are
found by looking alone, whatever the answers are. -/
theorem looking_keeps_files_iff (w : World) (c : Command) (path : String)
    (h : c.lookedAt? = some path) :
    (c.Opens w → (c.run w).files = w.opened path) ∧
    (¬c.Opens w → (c.run w).files = w.files) ∧
    (w.IsSettled path →
      ((c.run w).files = w.files ↔ ¬(c.Opens w ∧ ∃ a p, Makes w.files path a p)) ∧
      (∀ p, (c.run w).files.node? p = w.files.node? p ∨
        w.files.node? p = none ∧ (c.run w).files.node? p = some (.file (.bytes []))) ∧
      ("file:".toList.isPrefixOf path.toList = false → (c.run w).files = w.files)) ∧
    (∀ (path directory table : String) (e : MigrationError),
      (runMigrations w path directory table false).output = .error (.migration e) →
      isOfArguments e = true → (runMigrations w path directory table false).files = w.files) ∧
    ∀ {σ : Type} (x : Executor σ) (t : TableName) (steps : List Step) (s : σ),
      (∀ ev ∈ ((status (logged x) t).run ⟨s, []⟩).2.events, Peeks t ev.call) ∧
      ∀ ev ∈ ((pending (logged x) t steps).run ⟨s, []⟩).2.events, Peeks t ev.call := by
  refine ⟨c.files_of_opens h, c.files_of_not_opens h, fun hsettled => ?_,
    fun path directory table e => ?_, ?_⟩
  · rcases c.files_of_settled h hsettled with ⟨hno, hsame⟩ | ⟨ho, a, p, hm, hmade⟩
    · exact ⟨iff_of_true hsame hno, fun p => .inl (by rw [hsame]), fun _ => hsame⟩
    · rw [hmade]
      refine ⟨iff_of_false (Tree.set_ne hm.missing) fun hno => hno ⟨ho, a, p, hm⟩, fun q => ?_,
        fun hplain => absurd hm (Makes.not_of_hasPath (ho.hasPath h) hplain)⟩
      by_cases hq : q = p
      · subst hq
        exact .inr ⟨hm.missing, Tree.node?_set_self hm.missing⟩
      · exact .inl (Tree.node?_set_of_ne hq)
  · intro hfails he
    unfold runMigrations at hfails ⊢
    cases ht : TableName.ofString table with
    | error e => rfl
    | ok t =>
      cases hs : w.steps directory with
      | error e => rfl
      | ok steps =>
        simp only [ht, hs, Bool.false_eq_true, if_false] at hfails
        rw [isOfArguments_of_applyTo hfails] at he
        cases he
  · intro σ x t steps s
    exact ⟨(status_peeks _ t).logged s, (pending_peeks _ t steps).logged s⟩

theorem halfwayWorld_isSettled : halfwayWorld.IsSettled "app.db" := by
  intro a p ha hp
  have hplain : Address.ofText "app.db" = .ok (.ofPath "app.db") := by decide
  obtain rfl : Address.ofPath "app.db" = a := Except.ok.inj (hplain.symm.trans ha)
  have hplace : halfwayWorld.files.shortened "app.db" = .ok ["app.db"] := by decide +kernel
  obtain rfl : ["app.db"] = p := Except.ok.inj (hplace.symm.trans hp)
  exact .inr (by decide +kernel)

theorem looking_keeps_files_of_halfwayWorld :
    ((Command.status "app.db" (some "m") "schema_version" .text).run halfwayWorld).files =
        halfwayWorld.files ∧
      ((Command.migrate "app.db" "m" "schema_version" true).run halfwayWorld).files =
        halfwayWorld.files := by
  obtain ⟨-, -, hstatus, -⟩ := looking_keeps_files_iff halfwayWorld
    (.status "app.db" (some "m") "schema_version" .text) "app.db" rfl
  obtain ⟨-, -, hdry, -⟩ := looking_keeps_files_iff halfwayWorld
    (.migrate "app.db" "m" "schema_version" true) "app.db" rfl
  obtain ⟨-, -, hstatus⟩ := hstatus halfwayWorld_isSettled
  obtain ⟨-, -, hdry⟩ := hdry halfwayWorld_isSettled
  exact ⟨hstatus (by decide), hdry (by decide)⟩

/-- A file whose name begins like an address. -/
def addressedWorld : World :=
  { halfwayWorld with files := ⟨[(["m"], .directory), (["file:a.db"], .file (.bytes []))]⟩ }

/-- To look at the database in that file makes another one, where the address leads. -/
theorem looking_makes_file :
    addressedWorld.files.node? ["a.db"] = none ∧
      ∀ c ∈ [Command.status "file:a.db" none "schema_version" .text,
          .migrate "file:a.db" "m" "schema_version" true],
        (c.run addressedWorld).files.node? ["a.db"] = some (.file (.bytes [])) := by
  have hmakes : Makes addressedWorld.files "file:a.db" ⟨"a.db", .making, false, none⟩ ["a.db"] :=
    ⟨by decide +kernel, by decide, rfl, by decide +kernel, by decide +kernel, by decide⟩
  have hpath : addressedWorld.files.hasPath "file:a.db" = true := by decide +kernel
  have htable : TableName.ofString "schema_version" = .ok .standard := ofString_text .standard
  have hsteps : addressedWorld.steps "m" = .ok [] := by
    have hlisting : addressedWorld.files.readDirectory "m" = .ok [] :=
      congrArg Except.ok List.mergeSort_nil
    rw [World.steps, hlisting]
    exact congrArg Except.ok List.mergeSort_nil
  have hsettled : addressedWorld.IsSettled "file:a.db" := by
    intro a p ha hp
    obtain rfl : ⟨"a.db", .making, false, none⟩ = a := Except.ok.inj (hmakes.address.symm.trans ha)
    obtain rfl : ["a.db"] = p := Except.ok.inj (hmakes.place.symm.trans hp)
    exact .inr (by decide +kernel)
  refine ⟨hmakes.missing, ?_⟩
  have hmade {c : Command} (hc : c.lookedAt? = some "file:a.db") (ho : c.Opens addressedWorld) :
      (c.run addressedWorld).files.node? ["a.db"] = some (.file (.bytes [])) := by
    rcases c.files_of_settled hc hsettled with ⟨hno, -⟩ | ⟨-, a, p, hm, hfiles⟩
    · exact absurd ⟨ho, _, _, hmakes⟩ hno
    · obtain ⟨-, rfl⟩ := hmakes.eq hm
      rw [hfiles]
      exact Tree.node?_set_self hm.missing
  rintro c (_ | ⟨_, _ | ⟨_, hnil⟩⟩)
  · exact hmade rfl ⟨hpath, _, htable⟩
  · exact hmade rfl ⟨hpath, ⟨_, htable⟩, _, hsteps⟩
  · cases hnil

end SipMigrate.CommandLine
