import Batty.Foundation.Fallible
import Batty.Foundation.LineEnds
import Mathlib.Logic.Function.Basic

/-!
# The `.env` file

The tokens of the chat bridges are saved as lines `key=value`, and set in the environment of the
next process. What is written is put in quotes if it has a blank or a number sign in it, and then
the quotes and backslashes in it are escaped; what is read loses the quotes around it, of either
kind, and no escape is undone. So a value comes back just if nothing in it had to be escaped, or if
it was not quoted and does not stand in quotes itself (`Survives`).

A line that ends with a carriage return after its ending is taken off loses one more each time the
file is written. `savesValue_iff` has both conditions.
-/

namespace Batty

namespace EnvFile

open Text

/-! ### Lines -/

/-- The key and what stands behind the sign, where a line has them and is no comment. -/
def splitAssignment (line : List Char) : Option (List Char × List Char) :=
  let trimmed := trim line
  if trimmed.isEmpty || trimmed.head? = some '#' then none
  else do
    let trimmed := (trimmed.dropPrefix? "export ".toList).getD trimmed
    let (key, value) ← splitOnce ['='] trimmed
    let key := trim key
    if key.isEmpty then none else some (key, value)

/-- The key that a line assigns to. -/
def envKey (line : List Char) : Option (List Char) := (splitAssignment line).map (·.1)

/-- What stands between two of the sign. -/
def between (quote : Char) (value : List Char) : Option (List Char) :=
  (value.dropPrefix? [quote]).bind (·.dropSuffix? [quote])

/-- What is read as the value: what stands in double quotes, or in single ones, or all of it. -/
def unquote (value : List Char) : List Char :=
  match between '"' value, between '\'' value with
  | some unquoted, _ => unquoted
  | none, some unquoted => unquoted
  | none, none => value

/-- The key and the value of a line that assigns one. -/
def parseEnvAssignment (line : List Char) : Option (List Char × List Char) :=
  (splitAssignment line).map fun (key, value) => (key, unquote (trim value))

def replaceAll (c : Char) (new s : List Char) : List Char :=
  s.flatMap fun d => if d = c then new else [d]

/-- A backslash is put in front of quotes and backslashes. -/
def escape (value : List Char) : List Char :=
  replaceAll '"' "\\\"".toList (replaceAll '\\' "\\\\".toList value)

def needsQuotes (value : List Char) : Bool := value.any isWhitespace || value.contains '#'

/-- The value as it is written. -/
def renderEnvValue (value : List Char) : List Char :=
  if needsQuotes value then '"' :: escape value ++ ['"'] else value

def rendered (key value : List Char) : List Char := key ++ '=' :: renderEnvValue value

/-! ### Files -/

/-- What goes wrong in a call: the file cannot be read, or cannot be created or emptied, or only its
first characters are written. -/
inductive Fault where
  | read | create
  | write (written : Nat)
deriving DecidableEq

/-- The lines with the first assignment of the key replaced, or with one more at the end. -/
def upsertLines (key value : List Char) (lines : List (List Char)) : List (List Char) :=
  let isKey (line : List Char) : Bool := envKey line = some key
  if lines.any isKey then
    lines.replaceF fun line => if isKey line then some (rendered key value) else none
  else
    let gap := if !lines.isEmpty && !lines.getLast?.any List.isEmpty then [[]] else []
    lines ++ gap ++ [rendered key value]

/-- A file, where there is one. -/
abbrev File := Option (List Char)

/-- Read the lines of the file, if there is one, put the value in its place or at the end, and write
the file as a whole. It is emptied before it is written. -/
def upsertEnvVar (fault : Option Fault) (path : String) (key value : List Char) :
    EStateM String File Unit := do
  let lines ← match ← get with
    | none => pure []
    | some content =>
      if fault = some .read then throw s!"failed to read {path}" else pure (lines content)
  let lines := upsertLines key value lines
  let output := if lines.isEmpty then [] else ['\n'].intercalate lines ++ ['\n']
  match fault with
  | some .create => throw s!"failed to write {path}"
  | some (.write written) =>
    set (some (output.take written))
    throw s!"failed to write {path}"
  | some .read | none => set (some output)

/-! ### Loading -/

/-- How a call ends early: with an error, or by a panic of the library. -/
inductive Stop where
  | failed (message : String)
  | panicked
deriving DecidableEq

/-- The variables of the process. -/
abbrev Env := List Char → Option (List Char)

/-- A variable can have no zero in its name or in its value. -/
def setVar (env : Env) (key value : List Char) : Except Stop Env :=
  if '\x00' ∈ key ∨ '\x00' ∈ value then .error .panicked
  else .ok (Function.update env key (some value))

/-- A line sets a variable that is not set. -/
def loadLine (env : Env) (line : List Char) : Except Stop Env :=
  match parseEnvAssignment line with
  | none => .ok env
  | some (key, value) => if (env key).isNone then setVar env key value else .ok env

/-- Set the variables of the file that the process does not have, line by line. -/
def loadEnvFile (unreadable : Bool) (path : String) (file : File) (env : Env) : Except Stop Env :=
  match file with
  | none => .ok env
  | some content =>
    if unreadable then .error (.failed s!"failed to read {path}")
    else (lines content).foldlM loadLine env

/-! ### What is claimed -/

/-- The lines of the file, if there is one. -/
def fileLines (file : File) : List (List Char) := file.elim [] lines

def assignments (lines : List (List Char)) : List (List Char × List Char) :=
  lines.filterMap parseEnvAssignment

/-- The first assignment of each key. -/
def firstValues : List (List Char × List Char) → List (List Char × List Char)
  | [] => []
  | (key, value) :: rest => (key, value) :: (firstValues rest).filter (·.1 ≠ key)

def isComment (line : List Char) : Bool := (trim line).head? = some '#'

/-- The key has the value, and nothing is changed about the others and the comments. -/
structure Saved (key value : List Char) (file file' : File) : Prop where
  loadsBack : (assignments (fileLines file')).lookup key = some value
  others : (firstValues (assignments (fileLines file'))).filter (·.1 ≠ key) =
    (firstValues (assignments (fileLines file))).filter (·.1 ≠ key)
  comments : (fileLines file').filter isComment = (fileLines file).filter isComment

/-- **Values load back.** Whatever the disk does, a save that succeeds is read back as it was given
and leaves the rest alone, and the same save again changes nothing. -/
structure SavesValue (path : String) (key value : List Char) (file : File) : Prop where
  saved : ∀ fault file', upsertEnvVar fault path key value file = .ok () file' →
    Saved key value file file'
  again : ∀ fault fault' file' file'', upsertEnvVar fault path key value file = .ok () file' →
    upsertEnvVar fault' path key value file' = .ok () file'' → file'' = file'

/-! ### When it holds -/

/-- A key without blanks, the sign of an assignment and that of a comment in front. -/
structure IsKey (key : List Char) : Prop where
  blanks : ∀ c ∈ key, isWhitespace c = false
  sign : '=' ∉ key
  comment : key.head? ≠ some '#'

/-- The value stands in quotes of one kind. -/
def Quoted (value : List Char) : Prop :=
  ∃ quote, (quote = '"' ∨ quote = '\'') ∧ ∃ inner, value = quote :: inner ++ [quote]

/-- If it is put in quotes, nothing has to be escaped, and if not, it does not stand in quotes. -/
def Survives (value : List Char) : Prop :=
  if needsQuotes value then '"' ∉ value ∧ '\\' ∉ value else ¬ Quoted value

section

variable {key value value' line inner : List Char} {quote : Char}

/-! ### Quotes -/

theorem between_eq_some_iff :
    between quote value = some inner ↔ value = quote :: inner ++ [quote] := by
  simp only [between, Option.bind_eq_some_iff, List.dropPrefix?_eq_some_iff,
    List.dropSuffix?_eq_some_iff, beq_iff_eq]
  constructor
  · rintro ⟨rest, ⟨_, rfl, rfl⟩, _, rfl, rfl⟩
    rfl
  · rintro rfl
    exact ⟨inner ++ [quote], ⟨_, rfl, rfl⟩, _, rfl, rfl⟩

theorem unquote_eq_self_iff : unquote value = value ↔ ¬ Quoted value := by
  have hshort : ∀ quote inner, between quote value = some inner → inner ≠ value := by
    rintro quote inner hbetween rfl
    have hlength := congrArg List.length (between_eq_some_iff.mp hbetween)
    simp only [List.length_append, List.length_cons, List.length_nil] at hlength
    omega
  rw [unquote]
  cases hdouble : between '"' value with
  | some inner =>
    refine iff_of_false (hshort _ _ hdouble) (not_not_intro ⟨'"', .inl rfl, inner, ?_⟩)
    exact between_eq_some_iff.mp hdouble
  | none =>
    cases hsingle : between '\'' value with
    | some inner =>
      refine iff_of_false (hshort _ _ hsingle) (not_not_intro ⟨'\'', .inr rfl, inner, ?_⟩)
      exact between_eq_some_iff.mp hsingle
    | none =>
      refine iff_of_true rfl ?_
      rintro ⟨quote, rfl | rfl, inner, hvalue⟩
      · rw [between_eq_some_iff.mpr hvalue] at hdouble
        cases hdouble
      · rw [between_eq_some_iff.mpr hvalue] at hsingle
        cases hsingle

theorem replaceAll_of_not_mem {c : Char} {new s : List Char} (h : c ∉ s) :
    replaceAll c new s = s := by
  induction s with
  | nil => rfl
  | cons d s ih =>
    obtain ⟨hd, hs⟩ := not_or.mp fun hmem => h (List.mem_cons.mpr hmem)
    rw [replaceAll, List.flatMap_cons, if_neg (Ne.symm hd)]
    exact congrArg (d :: ·) (ih hs)

theorem length_add_count_le {c : Char} {new s : List Char} (hnew : 1 < new.length) :
    s.length + s.count c ≤ (replaceAll c new s).length := by
  induction s with
  | nil => exact Nat.zero_le _
  | cons d s ih =>
    rw [replaceAll, List.flatMap_cons, List.length_append, List.length_cons, List.count_cons]
    change _ ≤ _ + (replaceAll c new s).length
    split <;> simp_all <;> omega

theorem mem_replaceAll {c d : Char} {new s : List Char} (h : d ∈ replaceAll c new s) :
    d ∈ s ∨ d ∈ new := by
  obtain ⟨e, he, hd⟩ := List.mem_flatMap.mp h
  split at hd
  · exact .inr hd
  · exact .inl (List.mem_singleton.mp hd ▸ he)

theorem escape_eq_self_iff : escape value = value ↔ '"' ∉ value ∧ '\\' ∉ value := by
  constructor
  · intro heq
    have hinner := length_add_count_le (c := '\\') (s := value)
      (show 1 < "\\\\".toList.length by decide)
    have houter := length_add_count_le (c := '"') (s := replaceAll '\\' "\\\\".toList value)
      (show 1 < "\\\"".toList.length by decide)
    change _ ≤ (escape value).length at houter
    rw [heq] at houter
    have hback : '\\' ∉ value := List.count_eq_zero.mp (by omega)
    rw [replaceAll_of_not_mem hback] at houter
    exact ⟨List.count_eq_zero.mp (by omega), hback⟩
  · rintro ⟨hquote, hback⟩
    rw [escape, replaceAll_of_not_mem hback, replaceAll_of_not_mem hquote]

theorem unquote_renderEnvValue : unquote (renderEnvValue value) = value ↔ Survives value := by
  rw [renderEnvValue, Survives]
  split
  · have hbetween : between '"' ('"' :: escape value ++ ['"']) = some (escape value) :=
      between_eq_some_iff.mpr rfl
    rw [unquote, hbetween]
    exact escape_eq_self_iff
  · exact unquote_eq_self_iff

/-! ### The line that is written -/

theorem not_mem_of_isWhitespace {c : Char} (hc : isWhitespace c = true)
    (h : needsQuotes value = false) : c ∉ value :=
  fun hmem => by simp_all [needsQuotes]

/-- What is written of a value has no blank at either end. -/
theorem renderEnvValue_ends : (∀ c ∈ (renderEnvValue value).head?, isWhitespace c = false) ∧
    ∀ c ∈ (renderEnvValue value).getLast?, isWhitespace c = false := by
  rw [renderEnvValue]
  split
  · refine ⟨?_, ?_⟩
    · rintro c ⟨⟩
      decide
    · rw [List.getLast?_concat]
      rintro c ⟨⟩
      decide
  · rename_i hplain
    have hblanks : ∀ c ∈ value, isWhitespace c = false := fun c hmem =>
      Bool.eq_false_iff.mpr fun hc =>
        not_mem_of_isWhitespace hc (Bool.eq_false_iff.mpr hplain) hmem
    exact ⟨fun c hc => hblanks c (List.mem_of_head? hc),
      fun c hc => hblanks c (List.mem_of_getLast? hc)⟩

theorem getLast?_rendered : ∀ c ∈ (rendered key value).getLast?, isWhitespace c = false := by
  rw [rendered, List.getLast?_append_cons]
  cases hvalue : renderEnvValue value with
  | nil =>
    rintro c ⟨⟩
    decide
  | cons d rest =>
    rw [List.getLast?_cons_cons, ← hvalue]
    exact renderEnvValue_ends.2

theorem stripReturn_rendered : stripReturn (rendered key value) = rendered key value := by
  refine stripReturn_of_getLast? fun hlast => ?_
  exact absurd (getLast?_rendered '\r' hlast) (by decide)

theorem not_mem_rendered (hkey : IsKey key) (hvalue : '\n' ∉ value) :
    '\n' ∉ rendered key value := by
  have hrender : '\n' ∉ renderEnvValue value := by
    rw [renderEnvValue]
    split
    · have hescape : '\n' ∉ escape value := fun hmem => by
        rcases mem_replaceAll hmem with hmem | hmem
        · rcases mem_replaceAll hmem with hmem | hmem
          · exact hvalue hmem
          · simp at hmem
        · simp at hmem
      simp [hescape]
    · exact hvalue
  have hblank : '\n' ∉ key := fun hmem => absurd (hkey.blanks _ hmem) (by decide)
  simp [rendered, hblank, hrender]

/-- A key has no blank in it, so it is no `export`. -/
theorem dropPrefix?_rendered (hkey : IsKey key) :
    (rendered key value).dropPrefix? "export ".toList = none := by
  rw [Option.eq_none_iff_forall_ne_some]
  intro rest hrest
  obtain ⟨start, hstart, heq⟩ := List.dropPrefix?_eq_some_iff.mp hrest
  rw [beq_iff_eq.mp heq, rendered] at hstart
  rcases List.append_eq_append_iff.mp hstart with ⟨back, hexport, hback⟩ | ⟨back, hfront, hback⟩
  · cases back with
    | nil =>
      rw [List.append_nil] at hexport
      exact absurd (hkey.blanks ' ' (by rw [← hexport]; decide)) (by decide)
    | cons c back =>
      obtain ⟨rfl, -⟩ := List.cons.inj hback
      have hsign : '=' ∈ "export ".toList := by simp [hexport]
      exact absurd hsign (by decide)
  · exact absurd (hkey.blanks ' ' (by simp [hfront])) (by decide)

theorem splitAssignment_rendered (hkey : IsKey key) (hne : key ≠ []) :
    splitAssignment (rendered key value) = some (key, renderEnvValue value) := by
  obtain ⟨c, rest, rfl⟩ := List.exists_cons_of_ne_nil hne
  have htrim : trim (rendered (c :: rest) value) = rendered (c :: rest) value := by
    refine trim_eq_self ?_ getLast?_rendered
    rintro d ⟨⟩
    exact hkey.blanks c List.mem_cons_self
  have hcomment : (rendered (c :: rest) value).head? ≠ some '#' := hkey.comment
  have hsplit :
      splitOnce ['='] (rendered (c :: rest) value) = some (c :: rest, renderEnvValue value) := by
    have hsign : ¬ ['='] <:+: c :: rest := fun hmem =>
      hkey.sign (hmem.subset (List.mem_singleton_self _))
    have happend : splitOnce ['='] (c :: rest ++ ['='] ++ renderEnvValue value) =
        some (c :: rest, renderEnvValue value) := splitOnce_append List.not_mem_nil hsign
    simpa [rendered] using happend
  have hkeyTrim : trim (c :: rest) = c :: rest :=
    trim_eq_self (fun d hd => hkey.blanks d (List.mem_of_head? hd))
      fun d hd => hkey.blanks d (List.mem_of_getLast? hd)
  have hstart : ((rendered (c :: rest) value).isEmpty ||
      decide ((rendered (c :: rest) value).head? = some '#')) = false := by
    rw [decide_eq_false hcomment]
    rfl
  rw [splitAssignment]
  simp only [htrim, hstart, dropPrefix?_rendered hkey, Option.getD_none, hsplit, hkeyTrim,
    Bool.false_eq_true, if_false, Option.bind_eq_bind, Option.bind_some, List.isEmpty_cons]

theorem envKey_rendered (hkey : IsKey key) (hne : key ≠ []) :
    envKey (rendered key value) = some key := by
  rw [envKey, splitAssignment_rendered hkey hne, Option.map_some]

theorem parseEnvAssignment_rendered (hkey : IsKey key) (hne : key ≠ []) :
    parseEnvAssignment (rendered key value) = some (key, unquote (renderEnvValue value)) := by
  have htrim : trim (renderEnvValue value) = renderEnvValue value :=
    trim_eq_self renderEnvValue_ends.1 renderEnvValue_ends.2
  rw [parseEnvAssignment, splitAssignment_rendered hkey hne, Option.map_some]
  simp only [htrim]

theorem envKey_ne_nil : envKey line ≠ some [] := by
  rw [envKey, splitAssignment]
  split
  · simp
  · simp only [Option.bind_eq_bind, Ne, Option.map_eq_some_iff, Option.bind_eq_some_iff]
    rintro ⟨entry, ⟨⟨key, value⟩, -, hentry⟩, hkey⟩
    split at hentry
    · cases hentry
    · rename_i hne
      cases hentry
      exact hne (List.isEmpty_iff.mpr hkey)

/-- The keys that are found for writing are the ones that are read. -/
theorem envKey_eq : envKey line = (parseEnvAssignment line).map (·.1) := by
  rw [envKey, parseEnvAssignment, Option.map_map]
  rfl

theorem splitAssignment_stripReturn : splitAssignment (stripReturn line) = splitAssignment line := by
  rw [splitAssignment, splitAssignment, trim_stripReturn]

/-! ### Replacing a line -/

theorem replaceF_append_cons {α : Type} {f : α → Option α} {a a' : α} {before after : List α}
    (h : ∀ b ∈ before, f b = none) (ha : f a = some a') :
    (before ++ a :: after).replaceF f = before ++ a' :: after := by
  induction before with
  | nil => exact List.replaceF_cons_of_some f ha
  | cons b before ih =>
    obtain ⟨hb, hbefore⟩ := List.forall_mem_cons.mp h
    rw [List.cons_append, List.replaceF_cons_of_none f hb, ih hbefore, List.cons_append]

theorem upsertLines_append_cons {before after : List (List Char)}
    (h : ∀ line ∈ before, envKey line ≠ some key) (hline : envKey line = some key) :
    upsertLines key value (before ++ line :: after) = before ++ rendered key value :: after := by
  have hany : (before ++ line :: after).any fun line => envKey line = some key :=
    List.any_eq_true.mpr ⟨line, by simp, decide_eq_true hline⟩
  rw [upsertLines]
  simp only [hany, if_true]
  refine replaceF_append_cons (fun line hmem => ?_) ?_
  · rw [if_neg (by simpa using h line hmem)]
  · rw [if_pos (by simpa using hline)]

/-- The new line takes the place of the first one of the key, or stands at the end. -/
theorem upsertLines_cases (key value : List Char) (lines : List (List Char)) :
    ∃ before old gap after, lines = before ++ old ++ after ∧
      upsertLines key value lines = before ++ gap ++ rendered key value :: after ∧
      lines.eraseP (envKey · = some key) = before ++ after ∧
      (∀ line ∈ before, envKey line ≠ some key) ∧ (∀ line ∈ old, envKey line = some key) ∧
      ∀ line ∈ gap, line = [] := by
  by_cases hany : ∃ line ∈ lines, envKey line = some key
  · obtain ⟨line, hmem, hline⟩ := hany
    obtain ⟨line, before, after, hbefore, hline, rfl, herase⟩ :=
      List.exists_of_eraseP (p := (envKey · = some key)) hmem (decide_eq_true hline)
    have hbefore : ∀ line ∈ before, envKey line ≠ some key := fun line hmem => by
      simpa using hbefore line hmem
    have hline : envKey line = some key := by simpa using hline
    refine ⟨before, [line], [], after, by simp, ?_, herase, hbefore, ?_, by simp⟩
    · rw [upsertLines_append_cons hbefore hline, List.append_nil]
    · exact List.forall_mem_singleton.mpr hline
  · have hnone : ∀ line ∈ lines, envKey line ≠ some key := fun line hmem hline =>
      hany ⟨line, hmem, hline⟩
    have hfalse : (lines.any fun line => envKey line = some key) = false := by
      simpa [List.any_eq_false] using hnone
    refine ⟨lines, [], if !lines.isEmpty && !lines.getLast?.any List.isEmpty then [[]] else [], [],
      by simp, ?_, ?_, hnone, by simp, ?_⟩
    · rw [upsertLines]
      simp only [hfalse, Bool.false_eq_true, if_false]
    · rw [List.append_nil, List.eraseP_of_forall_not (by simpa using hnone)]
    · split <;> simp

theorem not_mem_of_mem_upsertLines (hkey : IsKey key) (hvalue : '\n' ∉ value)
    {lines : List (List Char)} (h : ∀ line ∈ lines, '\n' ∉ line) :
    ∀ line ∈ upsertLines key value lines, '\n' ∉ line := by
  obtain ⟨before, old, gap, after, rfl, hout, -, -, -, hgap⟩ := upsertLines_cases key value lines
  rw [hout]
  simp only [List.mem_append, List.mem_cons]
  rintro line ((hmem | hmem) | rfl | hmem)
  · exact h line (by simp [hmem])
  · rw [hgap line hmem]
    exact List.not_mem_nil
  · exact not_mem_rendered hkey hvalue
  · exact h line (by simp [hmem])

/-! ### Writing and reading the file -/

theorem intercalate_append_newline {lines : List (List Char)} (h : lines ≠ []) :
    ['\n'].intercalate lines ++ ['\n'] = unlines lines := by
  induction lines with
  | nil => exact absurd rfl h
  | cons line lines ih =>
    cases lines with
    | nil => simp
    | cons next lines =>
      rw [List.intercalate_cons_cons, List.append_assoc, ih (List.cons_ne_nil _ _), unlines_cons]
      simp

/-- A call that succeeds writes the lines with the value among them. -/
theorem upsertEnvVar_eq (fault : Option Fault) (path : String) (key value : List Char)
    (file : File) : upsertEnvVar fault path key value file =
      if file.isSome && fault = some .read then .error s!"failed to read {path}" file
      else
        match fault with
        | some .create => .error s!"failed to write {path}" file
        | some (.write written) => .error s!"failed to write {path}"
            (some ((unlines (upsertLines key value (fileLines file))).take written))
        | some .read | none => .ok () (some (unlines (upsertLines key value (fileLines file)))) := by
  have hne : upsertLines key value (fileLines file) ≠ [] := by
    obtain ⟨before, old, gap, after, -, hout, -⟩ := upsertLines_cases key value (fileLines file)
    simp [hout]
  have houtput : (if (upsertLines key value (fileLines file)).isEmpty then []
      else ['\n'].intercalate (upsertLines key value (fileLines file)) ++ ['\n']) =
        unlines (upsertLines key value (fileLines file)) := by
    rw [if_neg (by simp [hne]), intercalate_append_newline hne]
  rw [← houtput]
  cases file <;> rcases fault with _ | _ | _ | written <;> rfl

theorem eq_of_upsertEnvVar {fault : Option Fault} {path : String} {file file' : File}
    (h : upsertEnvVar fault path key value file = .ok () file') :
    file' = some (unlines (upsertLines key value (fileLines file))) := by
  rw [upsertEnvVar_eq] at h
  split at h
  · cases h
  · split at h <;> cases h
    all_goals rfl

theorem fileLines_unlines {lines : List (List Char)} (h : ∀ line ∈ lines, '\n' ∉ line) :
    fileLines (some (unlines lines)) = lines.map stripReturn := by
  have hread := lines_unlines_append h []
  rw [List.append_nil] at hread
  rw [fileLines, Option.elim_some, hread]
  exact List.append_nil _

theorem not_mem_fileLines {file : File} : ∀ line ∈ fileLines file, '\n' ∉ line := by
  cases file with
  | none => simp [fileLines]
  | some content => exact fun line hmem => not_mem_of_mem_lines hmem

theorem assignments_cons (line : List Char) (lines : List (List Char)) :
    assignments (line :: lines) = (parseEnvAssignment line).toList ++ assignments lines := by
  rw [assignments, List.filterMap_cons]
  cases parseEnvAssignment line <;> rfl

/-- A line sets its variable unless it is set. -/
theorem loadLine_apply {env env' : Env} (h : loadLine env line = .ok env') (key : List Char) :
    env' key = (env key).or ((parseEnvAssignment line).toList.lookup key) := by
  rw [loadLine] at h
  cases hparse : parseEnvAssignment line with
  | none =>
    rw [hparse] at h
    cases h
    simp
  | some entry =>
    obtain ⟨name, value⟩ := entry
    simp only [hparse, setVar] at h
    rw [Option.toList_some, List.lookup_cons, List.lookup_nil]
    by_cases hname : key = name
    · subst hname
      rw [beq_self_eq_true]
      cases hset : env key with
      | none =>
        simp only [hset, Option.isNone_none, if_true] at h
        split at h
        · cases h
        · cases h
          rw [Function.update_self]
          rfl
      | some old =>
        simp only [hset, Option.isNone_some, Bool.false_eq_true, if_false] at h
        cases h
        rw [hset]
        rfl
    · have hsame : env' key = env key := by
        split at h
        · split at h
          · cases h
          · cases h
            exact Function.update_of_ne hname _ _
        · cases h
          rfl
      rw [beq_false_of_ne hname, hsame]
      exact (Option.or_none).symm

/-- What a process has of a variable that was not set is the first value of it. -/
theorem loadEnvFile_apply {unreadable : Bool} {path : String} {file : File} {env env' : Env}
    (h : loadEnvFile unreadable path file env = .ok env') (key : List Char) :
    env' key = (env key).or ((assignments (fileLines file)).lookup key) := by
  have hlines : ∀ (lines : List (List Char)) (env : Env), lines.foldlM loadLine env = .ok env' →
      env' key = (env key).or ((assignments lines).lookup key) := by
    intro lines
    induction lines with
    | nil =>
      intro env henv
      cases henv
      exact (Option.or_none).symm
    | cons line lines ih =>
      intro env henv
      rw [List.foldlM_cons] at henv
      obtain ⟨mid, hmid, hrest⟩ := bind_eq_ok_iff.mp henv
      rw [ih mid hrest, loadLine_apply hmid, assignments_cons, List.lookup_append, Option.or_assoc]
  cases file with
  | none =>
    cases h
    exact (Option.or_none).symm
  | some content =>
    rw [loadEnvFile] at h
    split at h
    · cases h
    · exact hlines _ _ h

/-! ### First values -/

theorem filter_firstValues (key : List Char) (entries : List (List Char × List Char)) :
    (firstValues entries).filter (·.1 ≠ key) = firstValues (entries.filter (·.1 ≠ key)) := by
  induction entries with
  | nil => rfl
  | cons entry entries ih =>
    obtain ⟨name, value⟩ := entry
    rw [firstValues]
    by_cases hname : name = key
    · subst hname
      rw [List.filter_cons_of_neg (by simp), List.filter_cons_of_neg (by simp), List.filter_filter,
        ← ih]
      simp
    · rw [List.filter_cons_of_pos (by simpa using hname),
        List.filter_cons_of_pos (by simpa using hname), firstValues, List.filter_comm, ih]

/-! ### What comes back -/

theorem assignments_append (lines lines' : List (List Char)) :
    assignments (lines ++ lines') = assignments lines ++ assignments lines' :=
  List.filterMap_append

theorem assignments_map_stripReturn (lines : List (List Char)) :
    assignments (lines.map stripReturn) = assignments lines := by
  rw [assignments, List.filterMap_map]
  refine List.filterMap_congr fun line _ => ?_
  rw [Function.comp_apply, parseEnvAssignment, splitAssignment_stripReturn, parseEnvAssignment]

theorem envKey_of_mem_assignments {lines : List (List Char)} {entry : List Char × List Char}
    (h : entry ∈ assignments lines) : ∃ line ∈ lines, envKey line = some entry.1 := by
  obtain ⟨line, hline, hparse⟩ := List.mem_filterMap.mp h
  exact ⟨line, hline, by rw [envKey_eq, hparse, Option.map_some]⟩

theorem filter_assignments {lines : List (List Char)}
    (h : ∀ line ∈ lines, envKey line = some key) :
    (assignments lines).filter (·.1 ≠ key) = [] := by
  rw [List.filter_eq_nil_iff]
  intro entry hentry
  obtain ⟨line, hline, hname⟩ := envKey_of_mem_assignments hentry
  rw [h line hline] at hname
  simp [(Option.some.inj hname).symm]

theorem assignments_blank {lines : List (List Char)} (h : ∀ line ∈ lines, line = []) :
    assignments lines = [] := by
  rw [assignments, List.filterMap_eq_nil_iff]
  intro line hline
  rw [h line hline]
  rfl

theorem isComment_of_envKey {name : List Char} (h : envKey line = some name) :
    isComment line = false := by
  rw [isComment, decide_eq_false_iff_not]
  intro hcomment
  simp [envKey, splitAssignment, hcomment] at h

theorem lookup_upsertLines (hkey : IsKey key) (hne : key ≠ []) (lines : List (List Char)) :
    (assignments (upsertLines key value lines)).lookup key =
      some (unquote (renderEnvValue value)) := by
  obtain ⟨before, old, gap, after, -, hout, -, hbefore, -, hgap⟩ :=
    upsertLines_cases key value lines
  have hnone : (assignments before).lookup key = none := by
    rw [List.lookup_eq_none_iff]
    intro entry hentry
    obtain ⟨line, hline, hname⟩ := envKey_of_mem_assignments hentry
    exact bne_iff_ne.mpr fun heq => hbefore line hline (heq ▸ hname)
  rw [hout, assignments_append, assignments_append, assignments_blank hgap, assignments_cons,
    parseEnvAssignment_rendered hkey hne, List.append_nil, List.lookup_append, hnone]
  simp

theorem filter_assignments_upsertLines (hkey : IsKey key) (hne : key ≠ [])
    (lines : List (List Char)) : (assignments (upsertLines key value lines)).filter (·.1 ≠ key) =
      (assignments lines).filter (·.1 ≠ key) := by
  obtain ⟨before, old, gap, after, rfl, hout, -, -, hold, hgap⟩ :=
    upsertLines_cases key value lines
  simp only [hout, assignments_append, assignments_cons, assignments_blank hgap,
    parseEnvAssignment_rendered hkey hne, List.filter_append, filter_assignments hold]
  simp

theorem firstValues_upsertLines (hkey : IsKey key) (hne : key ≠ []) (lines : List (List Char)) :
    (firstValues (assignments (upsertLines key value lines))).filter (·.1 ≠ key) =
      (firstValues (assignments lines)).filter (·.1 ≠ key) := by
  rw [filter_firstValues, filter_firstValues, filter_assignments_upsertLines hkey hne]

theorem comments_upsertLines (hkey : IsKey key) (hne : key ≠ []) (lines : List (List Char)) :
    (upsertLines key value lines).filter isComment = lines.filter isComment := by
  obtain ⟨before, old, gap, after, rfl, hout, -, -, hold, hgap⟩ :=
    upsertLines_cases key value lines
  have holdNone : old.filter isComment = [] :=
    List.filter_eq_nil_iff.mpr fun line hline => by
      simp [isComment_of_envKey (hold line hline)]
  have hgapNone : gap.filter isComment = [] :=
    List.filter_eq_nil_iff.mpr fun line hline => by
      rw [hgap line hline]
      decide
  have hrendered : isComment (rendered key value) = false :=
    isComment_of_envKey (envKey_rendered hkey hne)
  rw [hout, List.filter_append, List.filter_append, List.filter_append, List.filter_append,
    holdNone, hgapNone, List.filter_cons_of_neg]
  simp [hrendered]

/-- Nothing is lost with the returns if no line that stays ends with one. -/
theorem map_stripReturn_upsertLines (key value : List Char) (lines : List (List Char)) :
    (upsertLines key value lines).map stripReturn = upsertLines key value lines ↔
      ∀ line ∈ lines.eraseP (envKey · = some key), line.getLast? ≠ some '\r' := by
  obtain ⟨before, old, gap, after, -, hout, herase, -, -, hgap⟩ :=
    upsertLines_cases key value lines
  have hgapNone : ∀ line ∈ gap, line.getLast? ≠ some '\r' := fun line hline => by
    rw [hgap line hline]
    simp
  have hrendered : (rendered key value).getLast? ≠ some '\r' :=
    stripReturn_eq_self_iff.mp stripReturn_rendered
  rw [map_stripReturn_eq_self_iff, hout, herase]
  simp only [List.forall_mem_append, List.forall_mem_cons]
  exact ⟨fun h => ⟨h.1.1, h.2.2⟩, fun h => ⟨⟨h.1, hgapNone⟩, hrendered, h.2⟩⟩

/-- What was written is not written over with anything else. -/
theorem upsertLines_map_stripReturn (hkey : IsKey key) (hne : key ≠ []) (lines : List (List Char)) :
    upsertLines key value ((upsertLines key value lines).map stripReturn) =
      (upsertLines key value lines).map stripReturn := by
  obtain ⟨before, old, gap, after, -, hout, -, hbefore, -, hgap⟩ :=
    upsertLines_cases key value lines
  have hfront : ∀ line ∈ (before ++ gap).map stripReturn, envKey line ≠ some key := by
    rw [List.forall_mem_map, List.forall_mem_append]
    refine ⟨fun line hline => ?_, fun line hline => ?_⟩
    · rw [envKey, splitAssignment_stripReturn]
      exact hbefore line hline
    · rw [hgap line hline]
      exact fun h => by cases h
  rw [hout, List.map_append, List.map_cons, stripReturn_rendered,
    upsertLines_append_cons hfront (envKey_rendered hkey hne)]

/-- **Saving a value.** It comes back, and saving it once more changes nothing, just if it has a
key, it can be read as it is written, and no other line ends with a return. -/
theorem savesValue_iff (path : String) (file : File) (hkey : IsKey key) (hvalue : '\n' ∉ value) :
    SavesValue path key value file ↔ key ≠ [] ∧ Survives value ∧
      ∀ line ∈ (fileLines file).eraseP (envKey · = some key), line.getLast? ≠ some '\r' := by
  have hfree : ∀ line ∈ upsertLines key value (fileLines file), '\n' ∉ line :=
    not_mem_of_mem_upsertLines hkey hvalue not_mem_fileLines
  have hread := fileLines_unlines hfree
  have hstripped : ∀ line ∈ (upsertLines key value (fileLines file)).map stripReturn,
      '\n' ∉ line := by
    rw [List.forall_mem_map]
    exact fun line hline => not_mem_stripReturn (hfree line hline)
  constructor
  · rintro ⟨hsaved, hagain⟩
    have hrun : ∀ file, upsertEnvVar none path key value file =
        .ok () (some (unlines (upsertLines key value (fileLines file)))) := fun file => by
      simp [upsertEnvVar_eq]
    have hback := (hsaved _ _ (hrun file)).loadsBack
    have hne : key ≠ [] := by
      rintro rfl
      obtain ⟨front, back, hentries, -⟩ := List.lookup_eq_some_iff.mp hback
      have hentry := hentries.symm ▸ List.mem_append_right front List.mem_cons_self
      obtain ⟨line, -, hname⟩ := envKey_of_mem_assignments hentry
      exact envKey_ne_nil hname
    rw [hread, assignments_map_stripReturn, lookup_upsertLines hkey hne] at hback
    have hsame := hagain _ _ _ _ (hrun file) (hrun _)
    rw [hread, upsertLines_map_stripReturn hkey hne] at hsame
    refine ⟨hne, unquote_renderEnvValue.mp (Option.some.inj hback), ?_⟩
    exact (map_stripReturn_upsertLines key value _).mp
      (unlines_inj hstripped hfree (Option.some.inj hsame))
  · rintro ⟨hne, hsurvives, hreturns⟩
    have hwhole := (map_stripReturn_upsertLines key value (fileLines file)).mpr hreturns
    refine ⟨fun fault file' hrun => ?_, fun fault fault' file' file'' hrun hrun' => ?_⟩
    · obtain rfl := eq_of_upsertEnvVar hrun
      rw [hwhole] at hread
      refine ⟨?_, ?_, ?_⟩
      · rw [hread, lookup_upsertLines hkey hne, unquote_renderEnvValue.mpr hsurvives]
      · rw [hread, firstValues_upsertLines hkey hne]
      · rw [hread, comments_upsertLines hkey hne]
    · obtain rfl := eq_of_upsertEnvVar hrun
      rw [eq_of_upsertEnvVar hrun', hread, upsertLines_map_stripReturn hkey hne, hwhole]

end

/-- A quoted token is replaced by one with a blank, between a comment and another key. -/
theorem savesValue_iff_token : SavesValue ".env" "TOKEN".toList "two words".toList
    (some "# bridge\nexport TOKEN='one'\nHOST=a\n".toList) := by
  refine (savesValue_iff _ _ ⟨?_, by decide, by decide⟩ (by decide)).mpr
    ⟨by decide, (if_pos (by decide)).mpr (by decide), ?_⟩
  · simp only [show "TOKEN".toList = ['T', 'O', 'K', 'E', 'N'] from rfl, List.forall_mem_cons]
    exact ⟨by decide, by decide, by decide, by decide, by decide, List.forall_mem_nil _⟩
  · intro line hline
    have hlines : (fileLines (some "# bridge\nexport TOKEN='one'\nHOST=a\n".toList)).eraseP
        (envKey · = some "TOKEN".toList) = ["# bridge".toList, "HOST=a".toList] := by decide
    rw [hlines] at hline
    rcases List.mem_pair.mp hline with rfl | rfl <;> decide

/-- A value with a blank and a backslash comes back with two. -/
theorem not_savesValue : ¬ ∀ path key value file, IsKey key → '\n' ∉ value →
    SavesValue path key value file := by
  intro hall
  have hkey : IsKey "T".toList := ⟨List.forall_mem_singleton.mpr (by decide), by decide, by decide⟩
  have hback := ((hall ".env" "T".toList "a \\".toList none hkey (by decide)).saved
    none _ rfl).loadsBack
  exact absurd hback (by decide)

/-! ### Runs of saves -/

theorem lookup_filter {name other : List Char} (h : other ≠ name)
    (entries : List (List Char × List Char)) :
    (entries.filter (·.1 ≠ name)).lookup other = entries.lookup other := by
  induction entries with
  | nil => rfl
  | cons entry entries ih =>
    rw [List.filter_cons, List.lookup_cons]
    split_ifs with hname
    · rw [List.lookup_cons, ih]
    · have hother : other ≠ entry.1 := fun heq => h (heq.trans (by simpa using hname))
      rw [ih, beq_false_of_ne hother]

/-- What a process has of the variables of a file. -/
def stored (file : File) : Env := fun key => (assignments (fileLines file)).lookup key

/-- A call that saves a value which survives. It may fail before the file is emptied. -/
structure Save where
  fault : Option Fault
  key : List Char
  value : List Char
  isKey : IsKey key
  ne_nil : key ≠ []
  line : '\n' ∉ value
  survives : Survives value
  whole : ∀ written, fault ≠ some (.write written)

theorem stored_upsertEnvVar {path : String} {file file' : File} (save : Save)
    (h : upsertEnvVar save.fault path save.key save.value file = .ok () file') :
    stored file' = Function.update (stored file) save.key (some save.value) := by
  obtain rfl := eq_of_upsertEnvVar h
  have hfree := not_mem_of_mem_upsertLines save.isKey save.line (@not_mem_fileLines file)
  funext other
  rw [stored, fileLines_unlines hfree, assignments_map_stripReturn, Function.update_apply]
  split_ifs with hother
  · rw [hother, lookup_upsertLines save.isKey save.ne_nil,
      unquote_renderEnvValue.mpr save.survives]
  · rw [stored, ← lookup_filter hother, filter_assignments_upsertLines save.isKey save.ne_nil,
      lookup_filter hother]

/-- The file, and beside it what is saved in it. -/
def Save.run (path : String) (state : File × Env) (save : Save) : File × Env :=
  match upsertEnvVar save.fault path save.key save.value state.1 with
  | .ok () file => (file, Function.update state.2 save.key (some save.value))
  | .error _ file => (file, state.2)

theorem Save.stored_run (path : String) (save : Save) {state : File × Env}
    (h : stored state.1 = state.2) : stored (save.run path state).1 = (save.run path state).2 := by
  rw [run]
  cases hsave : upsertEnvVar save.fault path save.key save.value state.1 with
  | ok done file =>
    rw [← h]
    exact stored_upsertEnvVar save hsave
  | error message file =>
    obtain rfl : file = state.1 := by
      rw [upsertEnvVar_eq] at hsave
      split at hsave
      · cases hsave
        rfl
      · split at hsave
        case h_1 =>
          cases hsave
          rfl
        case h_2 written hfault => exact absurd hfault (save.whole written)
        case h_3 => cases hsave
        case h_4 => cases hsave
    exact h

theorem stored_saves (path : String) (saves : List Save) {state : File × Env}
    (h : stored state.1 = state.2) :
    stored (saves.foldl (Save.run path) state).1 = (saves.foldl (Save.run path) state).2 := by
  induction saves generalizing state with
  | nil => exact h
  | cons save saves ih => exact ih (save.stored_run path h)

/-- **Saving and loading.** Of each variable that it did not have, a process that loads the file has
the value saved last, or else the first one that the file had. -/
theorem loadEnvFile_saves {path : String} {file : File} {saves : List Save} {unreadable : Bool}
    {env env' : Env} (h : loadEnvFile unreadable path
      (saves.foldl (Save.run path) (file, stored file)).1 env = .ok env') (key : List Char) :
    env' key = (env key).or ((saves.foldl (Save.run path) (file, stored file)).2 key) := by
  rw [loadEnvFile_apply h, ← stored_saves path saves rfl, stored]

/-- A token is saved twice, and the file cannot be created for the host in between. -/
def tokenSaves : List Save := [
  { fault := none, key := "T".toList, value := "one two".toList
    isKey := ⟨List.forall_mem_singleton.mpr (by decide), by decide, by decide⟩
    ne_nil := by decide, line := by decide
    survives := (if_pos (by decide)).mpr (by decide), whole := nofun },
  { fault := some .create, key := "H".toList, value := "new host".toList
    isKey := ⟨List.forall_mem_singleton.mpr (by decide), by decide, by decide⟩
    ne_nil := by decide, line := by decide
    survives := (if_pos (by decide)).mpr (by decide), whole := nofun },
  { fault := none, key := "T".toList, value := "three # four".toList
    isKey := ⟨List.forall_mem_singleton.mpr (by decide), by decide, by decide⟩
    ne_nil := by decide, line := by decide
    survives := (if_pos (by decide)).mpr (by decide), whole := nofun }]

/-- What is saved in a file with two lines for the host. -/
def savedTokens : File × Env :=
  let file := some "# bridge\nH=a\nexport H='b'\n".toList
  tokenSaves.foldl (Save.run ".env") (file, stored file)

/-- The later token is loaded, and the first of the two hosts. -/
theorem loadEnvFile_saves_token : ∃ env',
    loadEnvFile false ".env" savedTokens.1 (fun _ => none) = .ok env' ∧
      env' "T".toList = some "three # four".toList ∧ env' "H".toList = some "a".toList := by
  have hloads : (loadEnvFile false ".env" savedTokens.1 fun _ => none).toOption.isSome = true := by
    decide +kernel
  cases hload : loadEnvFile false ".env" savedTokens.1 fun _ => none with
  | error stop =>
    rw [hload] at hloads
    cases hloads
  | ok env' =>
    exact ⟨env', rfl, (loadEnvFile_saves hload _).trans (by decide +kernel),
      (loadEnvFile_saves hload _).trans (by decide +kernel)⟩

end EnvFile

end Batty
