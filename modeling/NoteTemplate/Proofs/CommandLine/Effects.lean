import NoteTemplate.CommandLine.World
import NoteTemplate.Proofs.FileTree

/-!
# What a run does to the world

A run that asks no questions fails, or lists the catalog, or shows a note, or writes one to a file.
Up to the last step it is quiet: it reads files and the input, and nothing but the standard error
and the log can tell. Only making directories and writing the note change the files.

* `World.Settles`: a part of a run comes to a result quietly.
* `World.catalog`, `World.answers`: the results that loading comes to.
* `World.Sparing`: a part of a run shows nothing and changes no file.
* `World.Effect`, `World.effect_run`: what a run can do.
* `World.effects_of_run`: what is shown and what is in the files after a run.
-/

namespace NoteTemplate.CommandLine

/-- The same arguments, but the note is shown and not written to a file. -/
def Arguments.shown (a : Arguments) : Arguments :=
  { a with file? := fun o => if o = .output then none else a.file? o }

namespace World

variable {α β : Type} {w w' : World}

/-! ## Quiet parts -/

/-- Goes on after a part of a run, unless that failed. -/
def proceed (next : α → ExceptT Error (StateM World) β) :
    Except Error α × World → Except Error β × World
  | (.ok x, w) => w.perform (next x)
  | (.error e, w) => (.error e, w)

theorem perform_bind (w : World) (part : ExceptT Error (StateM World) α)
    (next : α → ExceptT Error (StateM World) β) :
    w.perform (part >>= next) = proceed next (w.perform part) := by
  show (match w.perform part with
    | (r, w') => (ExceptT.bindCont next r : StateM World _) w') = _
  rcases w.perform part with ⟨_ | _, w'⟩ <;> rfl

/-- Only the standard error and the log are not as before. -/
structure Quiet (w w' : World) : Prop where
  files : w'.files = w.files
  input : w'.input = w.input
  output : w'.output = w.output

theorem Quiet.refl (w : World) : w.Quiet w := ⟨rfl, rfl, rfl⟩

theorem Quiet.trans {w'' : World} (h : w.Quiet w') (h' : w'.Quiet w'') : w.Quiet w'' :=
  ⟨h'.files.trans h.files, h'.input.trans h.input, h'.output.trans h.output⟩

/-- The part comes to the result quietly. -/
def Settles (w : World) (part : ExceptT Error (StateM World) α) (r : Except Error α) : Prop :=
  ∃ w', w.perform part = (r, w') ∧ w.Quiet w'

theorem settles_pure (w : World) (x : α) : w.Settles (pure x) (.ok x) := ⟨w, rfl, .refl w⟩

theorem settles_throw (w : World) (e : Error) :
    w.Settles (throw e : ExceptT Error (StateM World) α) (.error e) := ⟨w, rfl, .refl w⟩

theorem settles_lift {action : StateM World α} (h : w.Quiet (action w).2) :
    w.Settles (liftM action) (.ok (action w).1) := ⟨(action w).2, rfl, h⟩

theorem settles_liftExcept (w : World) (r : Except Error α) : w.Settles (liftM r) r :=
  ⟨w, rfl, .refl w⟩

theorem Settles.perform_bind {part : ExceptT Error (StateM World) α} {r : Except Error α}
    (h : w.Settles part r) (next : α → ExceptT Error (StateM World) β) :
    ∃ w', w.Quiet w' ∧ w.perform (part >>= next) = proceed next (r, w') := by
  obtain ⟨w', hpart, hquiet⟩ := h
  exact ⟨w', hquiet, by rw [World.perform_bind, hpart]⟩

/-- What holds of the run that goes on quietly, and of the one that ends with the error, holds of
the run. -/
theorem Settles.elim {part : ExceptT Error (StateM World) α} {r : Except Error α}
    (h : w.Settles part r) {next : α → ExceptT Error (StateM World) β}
    {P : Except Error β × World → Prop}
    (hok : ∀ x w', r = .ok x → w.Quiet w' → P (w'.perform (next x)))
    (herror : ∀ e w', r = .error e → w.Quiet w' → P (.error e, w')) :
    P (w.perform (part >>= next)) := by
  obtain ⟨w', hquiet, hbind⟩ := h.perform_bind next
  rw [hbind]
  cases r with
  | ok x => exact hok x w' rfl hquiet
  | error e => exact herror e w' rfl hquiet

theorem Settles.bind {part : ExceptT Error (StateM World) α} {r : Except Error α}
    (h : w.Settles part r) {next : α → ExceptT Error (StateM World) β} {f : α → Except Error β}
    (hnext : ∀ x w', w.Quiet w' → w'.Settles (next x) (f x)) :
    w.Settles (part >>= next) (r >>= f) := by
  obtain ⟨w', hquiet, hbind⟩ := h.perform_bind next
  cases r with
  | error e => exact ⟨w', hbind, hquiet⟩
  | ok x =>
    obtain ⟨w'', hperform, hquiet'⟩ := hnext x w' hquiet
    exact ⟨w'', hbind.trans hperform, hquiet.trans hquiet'⟩

theorem Settles.map {part : ExceptT Error (StateM World) α} {r : Except Error α}
    (h : w.Settles part r) (f : α → β) : w.Settles (f <$> part) (f <$> r) := by
  rw [← bind_pure_comp, ← bind_pure_comp]
  exact h.bind fun x w' _ => settles_pure w' (f x)

theorem settles_report (w : World) (verbose : Bool) (records : List Log.Record) :
    w.Settles (report verbose records) (.ok ()) := by
  rw [report]
  generalize records.filter (·.shown verbose) = shown
  induction shown generalizing w with
  | nil => exact settles_pure w ()
  | cons r shown ih =>
    have hlog : w.Settles (liftM (Host.log r : StateM World Unit)) (.ok ()) :=
      settles_lift ⟨rfl, rfl, rfl⟩
    exact hlog.bind fun _ w' _ => ih w'

/-! ## Loading -/

/-- What has been read, with errors as they end a run. -/
def text : Except FileError Text → Except Error Text
  | .ok s => .ok s
  | .error e => .error (.io e.message)

/-- The text of a file. -/
def fileText (w : World) (path : Text) : Except Error Text :=
  text ((w.files.read path).bind decode)

/-- The text of the input. -/
def inputText (w : World) : Except Error Text := text (decode w.input)

/-- The built-in templates, with those of a file merged over them if one is given. -/
def catalog (w : World) : (path : Option Text) → Except Error Catalog
  | none => .ok .builtin
  | some path => do
    let c ← Catalog.ofText (← w.fileText path)
    return Catalog.builtin.merge c

/-- The answers in a text. -/
def parsedAnswers (content : Text) : Except Error Answers :=
  match Answers.ofText content with
  | .ok answers => .ok answers
  | .error e => .error (.answers e.message)

/-- The answers of the input or of a file. -/
def answers (w : World) : AnswerSource → Except Error (Option Answers)
  | .input => some <$> (w.inputText >>= parsedAnswers)
  | .file path => some <$> (w.fileText path >>= parsedAnswers)
  | .interview => .ok none

theorem Quiet.fileText (h : w.Quiet w') : w'.fileText = w.fileText := by
  funext path
  rw [World.fileText, World.fileText, h.files]

theorem Quiet.inputText (h : w.Quiet w') : w'.inputText = w.inputText := by
  rw [World.inputText, World.inputText, h.input]

theorem Quiet.answers (h : w.Quiet w') : w'.answers = w.answers := by
  funext source
  cases source with
  | input => rw [World.answers, World.answers, h.inputText]
  | file path => rw [World.answers, World.answers, h.fileText]
  | interview => rfl

theorem settles_readFile (w : World) (path : Text) :
    w.Settles (readFile path) (w.fileText path) := by
  have hread : w.Settles (liftM (Host.readFile path : StateM World _))
      (.ok ((w.files.read path).bind decode)) := settles_lift (.refl w)
  refine hread.bind (f := text) fun content w' _ => ?_
  cases content with
  | ok s => exact settles_pure w' s
  | error e => exact settles_throw w' _

theorem settles_fullCatalog (w : World) (verbose : Bool) (path : Option Text) :
    w.Settles (fullCatalog verbose path) (w.catalog path) := by
  cases path with
  | none => exact settles_pure w _
  | some path =>
    have hload : w.Settles (loadCatalog verbose path) (w.fileText path >>= Catalog.ofText) := by
      refine (settles_report w _ _).bind (f := fun _ => w.fileText path >>= Catalog.ofText)
        fun _ w' hquiet => ?_
      rw [← hquiet.fileText]
      exact (settles_readFile w' path).bind fun content w'' _ => settles_liftExcept w'' _
    have hmerge := hload.bind (f := fun c => .ok (Catalog.builtin.merge c)) fun c w' _ =>
      (settles_report w' verbose (Catalog.mergeReport c)).bind fun _ w'' _ =>
        settles_pure w'' (Catalog.builtin.merge c)
    rw [bind_assoc] at hmerge
    exact hmerge

theorem settles_readAnswers (w : World) (verbose : Bool) (content : Text) :
    w.Settles (readAnswers verbose content) (parsedAnswers content) := by
  refine (settles_report w _ _).bind (f := fun _ => parsedAnswers content) fun _ w' _ => ?_
  rw [parsedAnswers]
  cases Answers.ofText content with
  | ok a => exact settles_pure w' a
  | error e => exact settles_throw w' _

theorem settles_loadAnswers (w : World) (verbose : Bool) (source : AnswerSource) :
    w.Settles (loadAnswers verbose source) (w.answers source) := by
  cases source with
  | interview => exact settles_pure w none
  | input =>
    have hread : w.Settles (liftM (Host.readInput : StateM World _)) (.ok (decode w.input)) :=
      settles_lift (.refl w)
    refine hread.bind (f := fun content => some <$> (text content >>= parsedAnswers))
      fun content w' _ => ?_
    cases content with
    | ok s => exact (settles_readAnswers w' verbose s).map some
    | error e => exact settles_throw w' _
  | file path =>
    have hread (w' : World) : w'.Settles (do readAnswers verbose (← readFile path))
        (w'.fileText path >>= parsedAnswers) :=
      (settles_readFile w' path).bind fun s w'' _ => settles_readAnswers w'' verbose s
    refine (settles_report w _ _).bind
      (f := fun _ => some <$> (w.fileText path >>= parsedAnswers)) fun _ w' hquiet => ?_
    rw [← hquiet.fileText]
    have hmap := (hread w').map some
    rw [map_bind] at hmap
    exact hmap

/-! ## Writing -/

/-- Nothing is shown and no file is made or changed. Directories may be made. -/
structure Harmless (w w' : World) : Prop where
  output : w'.output = w.output
  files : w'.files.file? = w.files.file?

theorem Harmless.refl (w : World) : w.Harmless w := ⟨rfl, rfl⟩

theorem Harmless.trans {w'' : World} (h : w.Harmless w') (h' : w'.Harmless w'') :
    w.Harmless w'' :=
  ⟨h'.output.trans h.output, h'.files.trans h.files⟩

theorem Quiet.harmless (h : w.Quiet w') : w.Harmless w' := ⟨h.output, by rw [h.files]⟩

/-- Whatever comes of the part, it is harmless. -/
def Sparing (part : ExceptT Error (StateM World) α) : Prop :=
  ∀ w : World, w.Harmless (w.perform part).2

theorem sparing_pure (x : α) : Sparing (pure x) := Harmless.refl

theorem sparing_throw (e : Error) : Sparing (throw e : ExceptT Error (StateM World) α) :=
  Harmless.refl

theorem Sparing.bind {part : ExceptT Error (StateM World) α} (h : Sparing part)
    {next : α → ExceptT Error (StateM World) β} (hnext : ∀ x, Sparing (next x)) :
    Sparing (part >>= next) := by
  intro w
  have hpart := h w
  rw [perform_bind]
  generalize w.perform part = p at hpart ⊢
  rcases p with ⟨_ | x, w'⟩
  · exact hpart
  · exact hpart.trans (hnext x w')

theorem sparing_makeDirectory (path : Text) :
    Sparing (liftM (Host.makeDirectory path : StateM World _)) := by
  intro w
  show w.Harmless (change (fun t => t.makeDirectory path) w).2
  rw [change]
  cases hmake : w.files.makeDirectory path with
  | error e => exact .refl w
  | ok files => exact ⟨rfl, FileTree.file?_makeDirectory hmake⟩

theorem sparing_isDirectory (path : Text) :
    Sparing (liftM (Host.isDirectory path : StateM World _)) := Harmless.refl

/-- A directory that cannot be made has to be there already. -/
theorem sparing_unlessDirectory (path : Text) (e : Error) :
    Sparing (do unless ← (Host.isDirectory path : StateM World _) do throw e) := by
  refine (sparing_isDirectory path).bind fun there => ?_
  cases there with
  | true => exact sparing_pure _
  | false => exact sparing_throw _

theorem sparing_makeDirectories (paths : List Text) :
    Sparing (makeDirectories (m := StateM World) paths) := by
  induction paths with
  | nil => exact sparing_pure ()
  | cons path outer ih =>
    refine (sparing_makeDirectory path).bind fun made => ?_
    cases made with
    | ok => exact sparing_pure ()
    | error e =>
      cases e with
      | notFound =>
        refine ih.bind fun _ => (sparing_makeDirectory path).bind fun made => ?_
        cases made with
        | ok => exact sparing_pure ()
        | error e => exact sparing_unlessDirectory path _
      | _ => exact sparing_unlessDirectory path _

/-- The file at the path has the text, no other file is changed, and nothing is shown. -/
structure Written (w w' : World) (path content : Text) : Prop where
  output : w'.output = w.output
  files : w.files.OnlyWritten w'.files path (encode content)

theorem Harmless.written {w'' : World} {path content : Text} (h : w.Harmless w')
    (h' : w'.Written w'' path content) : w.Written w'' path content := by
  obtain ⟨place, hplace, hothers⟩ := h'.files.others
  refine ⟨h'.output.trans h.output, h'.files.read, place, hplace, fun other hother => ?_⟩
  rw [hothers other hother, h.files]

/-- Either the file cannot be opened, or it is written. -/
theorem perform_writeFile (w : World) (path content : Text) :
    (∃ e w', w.perform (writeFile path content) = (.error e, w') ∧ w.Harmless w') ∨
      ∃ w', w.perform (writeFile path content) = (.ok (), w') ∧ w.Written w' path content := by
  have hmade := sparing_makeDirectories (Path.parents path) w
  rw [writeFile, perform_bind]
  generalize w.perform (makeDirectories (Path.parents path)) = made at hmade ⊢
  rcases made with ⟨e | _, w'⟩
  · exact Or.inl ⟨e, w', rfl, hmade⟩
  · rw [proceed, perform_bind]
    have hchange : w'.perform (liftM (Host.writeFile path content : StateM World _)) =
        (.ok (change (fun t => t.write path (encode content)) w').1,
          (change (fun t => t.write path (encode content)) w').2) := rfl
    rw [hchange, change]
    cases hwrite : w'.files.write path (encode content) with
    | error e => exact Or.inl ⟨_, w', rfl, hmade⟩
    | ok files =>
      have hwritten : w'.Written { w' with files } path content :=
        ⟨rfl, FileTree.onlyWritten_write hwrite⟩
      exact Or.inr ⟨_, rfl, hmade.written hwritten⟩

/-- What is done with the body of a note. -/
def handOver (verbose : Bool) (output : Option Text) (body : Text) :
    ExceptT Error (StateM World) Unit :=
  match output with
  | none => liftM (Host.print (body ++ ['\n']) : StateM World Unit)
  | some path => do
    writeFile path body
    report verbose [Log.debug .program ("Output written to " ++ String.ofList path)]

/-- The start of the subject line goes to the standard error. -/
theorem perform_deliver (w : World) (verbose : Bool) (output : Option Text) (note : Note) :
    ∃ w', w.Quiet w' ∧
      w.perform (deliver verbose output note) = w'.perform (handOver verbose output note.body) := by
  unfold deliver
  cases note.subjectPrefix with
  | none => exact ⟨w, .refl w, rfl⟩
  | some start =>
    let line := "Subject prefix: ".toList ++ start ++ ['\n']
    exact ⟨{ w with errors := w.errors ++ line }, ⟨rfl, rfl, rfl⟩, rfl⟩

theorem perform_handOver_none (w : World) (verbose : Bool) (body : Text) :
    w.perform (handOver verbose none body) =
      (.ok (), { w with output := w.output ++ (body ++ ['\n']) }) := rfl

theorem perform_handOver_some (w : World) (verbose : Bool) (path body : Text) :
    (∃ e w', w.perform (handOver verbose (some path) body) = (.error e, w') ∧ w.Harmless w') ∨
      ∃ w', w.perform (handOver verbose (some path) body) = (.ok (), w') ∧
        w.Written w' path body := by
  rw [handOver, perform_bind]
  rcases w.perform_writeFile path body with ⟨e, w', hwrite, hharmless⟩ | ⟨w', hwrite, hwritten⟩
  · rw [hwrite]
    exact Or.inl ⟨e, w', rfl, hharmless⟩
  · rw [hwrite]
    obtain ⟨w'', hreport, hquiet⟩ := w'.settles_report verbose
      [Log.debug .program ("Output written to " ++ String.ofList path)]
    refine Or.inr ⟨w'', hreport, hquiet.output.trans hwritten.output, ?_⟩
    rw [hquiet.files]
    exact hwritten.files

/-! ## Runs -/

/-- The body that the arguments ask for: that of the template with the key, from the catalog,
filled with the answers of the input or of a file. -/
def Generates (w : World) (a : Arguments) (body : Text) : Prop :=
  ∃ catalog entry answers, w.catalog (a.file? .catalog) = .ok catalog ∧
    catalog.get (a.template.getD []) = .ok entry ∧
    w.answers a.answerSource = .ok (some answers) ∧ body = (entry.fill answers.toValues).body

section Generates

variable {a : Arguments} {e : Error} {body body' : Text}

theorem not_generates_of_catalog (h : w.catalog (a.file? .catalog) = .error e) :
    ¬ w.Generates a body := by
  rintro ⟨c, -, -, hcatalog, -⟩
  rw [h] at hcatalog
  cases hcatalog

theorem not_generates_of_get {c : Catalog} (hcatalog : w.catalog (a.file? .catalog) = .ok c)
    (h : c.get (a.template.getD []) = .error e) : ¬ w.Generates a body := by
  rintro ⟨c', entry, -, hcatalog', hentry, -⟩
  obtain rfl : c = c' := Except.ok.inj (hcatalog.symm.trans hcatalog')
  rw [h] at hentry
  cases hentry

theorem not_generates_of_answers (h : w.answers a.answerSource = .error e) :
    ¬ w.Generates a body := by
  rintro ⟨-, -, answers, -, -, hanswers, -⟩
  rw [h] at hanswers
  cases hanswers

theorem generates_unique (h : w.Generates a body)
    (h' : w.Generates a body') : body = body' := by
  obtain ⟨c, entry, answers, hcatalog, hentry, hanswers, rfl⟩ := h
  obtain ⟨c', entry', answers', hcatalog', hentry', hanswers', rfl⟩ := h'
  obtain rfl := Except.ok.inj (hcatalog.symm.trans hcatalog')
  obtain rfl := Except.ok.inj (hentry.symm.trans hentry')
  obtain rfl := Option.some.inj (Except.ok.inj (hanswers.symm.trans hanswers'))
  rfl

end Generates

/-- What a run that asks no questions comes to. -/
inductive Effect (w : World) (a : Arguments) : Except Error Unit × World → Prop
  /-- The catalog cannot be loaded, or there is no note, or its file cannot be written. -/
  | failed {e : Error} {w' : World} (harmless : w.Harmless w')
      (list : a.has .list = true → w.catalog (a.file? .catalog) = .error e)
      (note : a.has .list = false → a.file? .output = none → ∀ body, ¬ w.Generates a body) :
      Effect w a (.error e, w')
  | listed {c : Catalog} {w' : World} (list : a.has .list = true)
      (catalog : w.catalog (a.file? .catalog) = .ok c)
      (output : w'.output = w.output ++ listing c) (files : w'.files = w.files) :
      Effect w a (.ok (), w')
  | shown {body : Text} {w' : World} (list : a.has .list = false)
      (noFile : a.file? .output = none) (note : w.Generates a body)
      (output : w'.output = w.output ++ (body ++ ['\n'])) (files : w'.files = w.files) :
      Effect w a (.ok (), w')
  | written {path body : Text} {w' : World} (list : a.has .list = false)
      (file : a.file? .output = some path) (note : w.Generates a body)
      (written : w.Written w' path body) : Effect w a (.ok (), w')

theorem some_map_ne_none (r : Except Error Answers) : some <$> r ≠ .ok none := by
  intro h
  cases r with
  | ok answers => exact Option.some_ne_none answers (Except.ok.inj h)
  | error e => cases h

/-- The input and files have answers, or an error. -/
theorem answers_ne_none (w : World) {source : AnswerSource} (h : source ≠ .interview) :
    w.answers source ≠ .ok none := by
  cases source with
  | input => exact some_map_ne_none _
  | file path => exact some_map_ne_none _
  | interview => exact absurd rfl h

/-- An error that ends a run quietly before the note is made leaves no note to be shown. -/
theorem effect_failed {a : Arguments} (hlist : a.has .list = false) (hquiet : w.Quiet w')
    (hnote : ∀ body, ¬ w.Generates a body) (e : Error) : w.Effect a (.error e, w') := by
  refine .failed hquiet.harmless (fun hlist' => ?_) fun _ _ => hnote
  rw [hlist] at hlist'
  cases hlist'

/-- The last step of a run that has made a note. -/
theorem effect_deliver {a : Arguments} (hlist : a.has .list = false) (hquiet : w.Quiet w')
    (verbose : Bool) {note : Note} (hnote : w.Generates a note.body) :
    w.Effect a (w'.perform (deliver verbose (a.file? .output) note)) := by
  obtain ⟨w'', hquiet', hdeliver⟩ := w'.perform_deliver verbose (a.file? .output) note
  have hquiet := hquiet.trans hquiet'
  rw [hdeliver]
  cases hpath : a.file? .output with
  | none =>
    rw [perform_handOver_none]
    exact .shown hlist hpath hnote (by rw [hquiet.output]) hquiet.files
  | some path =>
    rcases w''.perform_handOver_some verbose path note.body with
      ⟨e, last, hlast, hharmless⟩ | ⟨last, hlast, hwritten⟩
    · rw [hlast]
      refine .failed (hquiet.harmless.trans hharmless) (fun hlist' => ?_) fun _ hnone => ?_
      · rw [hlist] at hlist'
        cases hlist'
      · rw [hpath] at hnone
        cases hnone
    · rw [hlast]
      exact .written hlist hpath hnote (hquiet.harmless.written hwritten)

theorem effect_run (w : World) {a : Arguments}
    (h : a.has .list = false → a.answerSource ≠ .interview) :
    w.Effect a (w.perform (run a)) := by
  unfold run
  dsimp only
  refine (w.settles_fullCatalog _ _).elim (P := w.Effect a) (fun c w₁ hcatalog q₁ => ?_)
    fun e w₁ hcatalog q₁ => ?_
  swap
  · exact .failed q₁.harmless (fun _ => hcatalog) fun _ _ _ => not_generates_of_catalog hcatalog
  cases hlist : a.has .list with
  | true => exact .listed hlist hcatalog (congrArg (· ++ listing c) q₁.output) q₁.files
  | false =>
    refine (settles_liftExcept w₁ _).elim (P := w.Effect a) (fun entry w₂ hentry q₂ => ?_)
      fun e w₂ hentry q₂ => ?_
    swap
    · exact effect_failed hlist (q₁.trans q₂) (fun _ => not_generates_of_get hcatalog hentry) e
    have q₂ := q₁.trans q₂
    refine (w₂.settles_loadAnswers _ _).elim (P := w.Effect a) (fun answers w₃ hanswers q₃ => ?_)
      fun e w₃ hanswers q₃ => ?_
    all_goals rw [q₂.answers] at hanswers
    swap
    · exact effect_failed hlist (q₂.trans q₃) (fun _ => not_generates_of_answers hanswers) e
    have q₃ := q₂.trans q₃
    cases answers with
    | none => exact absurd hanswers (w.answers_ne_none (h hlist))
    | some answers =>
      show w.Effect a (w₃.perform (do
        report (a.has .verbose) (entry.fillReport answers.toValues)
        deliver (a.has .verbose) (a.file? .output) (entry.fill answers.toValues)))
      refine (w₃.settles_report _ _).elim (P := w.Effect a) (fun _ w₄ _ q₄ => ?_)
        fun e w₄ hreport _ => ?_
      · exact effect_deliver hlist (q₃.trans q₄) _
          ⟨c, entry, answers, hcatalog, hentry, hanswers, rfl⟩
      · cases hreport

namespace Effect

variable {a : Arguments} {result : Except Error Unit}

theorem harmless_of_error {e : Error} (h : w.Effect a (.error e, w')) : w.Harmless w' := by
  cases h with
  | failed harmless _ _ => exact harmless

theorem of_list (h : w.Effect a (result, w')) (hlist : a.has .list = true) :
    (∀ c, w.catalog (a.file? .catalog) = .ok c →
      result = .ok () ∧ w'.output = w.output ++ listing c ∧ w'.files = w.files) ∧
    ∀ e, w.catalog (a.file? .catalog) = .error e → result = .error e := by
  cases h with
  | failed _ list _ =>
    rw [list hlist]
    refine ⟨fun c hc => ?_, fun e he => ?_⟩
    · cases hc
    · cases he
      rfl
  | listed _ catalog output files =>
    rw [catalog]
    refine ⟨fun c hc => ?_, fun e he => ?_⟩
    · cases hc
      exact ⟨rfl, output, files⟩
    · cases he
  | shown list _ _ _ _ => exact absurd (hlist.symm.trans list) Bool.noConfusion
  | written list _ _ _ => exact absurd (hlist.symm.trans list) Bool.noConfusion

theorem of_ok (h : w.Effect a (.ok (), w')) (hlist : a.has .list = false) :
    ∃ body, w.Generates a body ∧
      (a.file? .output = none → w'.output = w.output ++ (body ++ ['\n']) ∧ w'.files = w.files) ∧
      ∀ path, a.file? .output = some path → w.Written w' path body := by
  cases h with
  | listed list _ _ _ => exact absurd (list.symm.trans hlist) Bool.noConfusion
  | shown _ noFile note output files =>
    rw [noFile]
    refine ⟨_, note, fun _ => ⟨output, files⟩, fun path hpath => ?_⟩
    cases hpath
  | written _ file note written =>
    rw [file]
    refine ⟨_, note, fun hnone => ?_, fun path hpath => ?_⟩
    · cases hnone
    · cases hpath
      exact written

/-- If there is a note, it is shown. -/
theorem of_generates (h : w.Effect a (result, w')) (hlist : a.has .list = false)
    (hpath : a.file? .output = none) {body : Text} (hnote : w.Generates a body) :
    result = .ok () ∧ w'.output = w.output ++ (body ++ ['\n']) := by
  cases h with
  | failed _ _ note => exact absurd hnote (note hlist hpath body)
  | listed list _ _ _ => exact absurd (list.symm.trans hlist) Bool.noConfusion
  | shown _ _ note output _ =>
    obtain rfl := generates_unique hnote note
    exact ⟨rfl, output⟩
  | written _ file _ _ =>
    rw [hpath] at file
    cases file

end Effect

theorem answerSource_ne_interview {a : Arguments}
    (h : a.has .input = true ∨ (a.file? .answers).isSome = true) :
    a.answerSource ≠ .interview := by
  unfold Arguments.answerSource AnswerSource.choose
  rcases h with h | h
  · rw [if_pos h]
    exact AnswerSource.noConfusion
  · obtain ⟨path, hpath⟩ := Option.isSome_iff_exists.mp h
    rw [hpath]
    split <;> exact AnswerSource.noConfusion

/-- A run that asks no questions has one of these effects. -/
theorem effects_of_run (a : Arguments) (files : FileTree) (input : List UInt8)
    (editor : Option (List (List UInt8)))
    (h : a.has .list = true ∨ a.has .input = true ∨ (a.file? .answers).isSome = true) :
    let w := ofFiles files input editor
    let result := (w.perform (run a)).1
    let after := (w.perform (run a)).2
    (∀ e, result = .error e → after.output = [] ∧ after.files.file? = files.file?) ∧
    (a.has .list = true →
      (∀ c, w.catalog (a.file? .catalog) = .ok c → result = .ok () ∧
        after.output = c.entries.entries.flatMap (fun t => t.1 ++ ['\t'] ++ t.2.name ++ ['\n']) ∧
        after.files = files) ∧
      ∀ e, w.catalog (a.file? .catalog) = .error e → result = .error e) ∧
    (a.has .list = false →
      (a.file? .output = none → ∀ body, w.Generates a body → result = .ok ()) ∧
      (result = .ok () → ∃ body, w.Generates a body ∧
        (a.file? .output = none → after.output = body ++ ['\n'] ∧ after.files = files) ∧
        ∀ path, a.file? .output = some path → after.output = [] ∧
          files.OnlyWritten after.files path (encode body) ∧
          (w.perform (run a.shown)).1 = .ok () ∧
          (w.perform (run a.shown)).2.output = body ++ ['\n'])) := by
  intro w result after
  have hsource : a.has .list = false → a.answerSource ≠ .interview := by
    intro hlist
    rw [hlist] at h
    exact answerSource_ne_interview (h.resolve_left Bool.noConfusion)
  have heffect : w.Effect a (result, after) := w.effect_run hsource
  refine ⟨fun e he => ?_, heffect.of_list, fun hlist => ⟨fun hpath body hnote => ?_, fun hok => ?_⟩⟩
  · rw [he] at heffect
    exact ⟨heffect.harmless_of_error.output, heffect.harmless_of_error.files⟩
  · exact (heffect.of_generates hlist hpath hnote).1
  · rw [hok] at heffect
    obtain ⟨body, hnote, hshown, hwritten⟩ := heffect.of_ok hlist
    refine ⟨body, hnote, hshown, fun path hpath => ?_⟩
    have hother : w.Effect a.shown (w.perform (run a.shown)) := w.effect_run fun _ => hsource hlist
    have hbody : w.Generates a.shown body := hnote
    obtain ⟨hresult, houtput⟩ := hother.of_generates hlist rfl hbody
    exact ⟨(hwritten path hpath).output, (hwritten path hpath).files, hresult, houtput⟩

/-- The template `t` of a catalog file, filled from the input and written into a directory that is
not there yet. -/
def letterArguments : Arguments where
  template := some ['t']
  file?
    | .catalog => some "c.json".toList
    | .answers => none
    | .output => some "out/t.txt".toList
  has f := f = .input

/-- One template, `[A]`. -/
def letterFiles : FileTree :=
  FileTree.empty.insert ["c.json".toList] (.file (encode
    "\x7b\"t\": \x7b\"name\": \"T\", \"source\": \"[A]\"\x7d\x7d".toList))

def letterInput : List UInt8 :=
  encode "\x7b\"values\": \x7b\"A\": \"x\\ny\"\x7d\x7d".toList

theorem effects_of_run_letter :
    (letterArguments.has .list = true ∨ letterArguments.has .input = true ∨
      (letterArguments.file? .answers).isSome = true) ∧
    ∃ body,
      ((ofFiles letterFiles letterInput none).perform (run letterArguments)).2.files.read
        "out/t.txt".toList = .ok (encode body) ∧
      ((ofFiles letterFiles letterInput none).perform (run letterArguments.shown)).2.output =
        body ++ ['\n'] := by
  have h : letterArguments.has .list = true ∨ letterArguments.has .input = true ∨
      (letterArguments.file? .answers).isSome = true := by decide
  have hok : ((ofFiles letterFiles letterInput none).perform (run letterArguments)).1 = .ok () := by
    decide +kernel
  obtain ⟨-, -, hnote⟩ := effects_of_run letterArguments letterFiles letterInput none h
  obtain ⟨body, -, -, hwritten⟩ := (hnote rfl).2 hok
  obtain ⟨-, hfile, -, hshown⟩ := hwritten _ rfl
  exact ⟨h, body, hfile.read, hshown⟩

end World

end NoteTemplate.CommandLine
