import Mathlib.Data.List.TakeWhile
import Batty.Foundation.Substrings
import Batty.Foundation.Text
import Batty.Foundation.Trimming

/-!
# Planning responses

The architect answers with the tasks it proposes, one block after another: the frontmatter of a
task between two lines of dashes, and below it the body, up to the dashes of the next block. The
answer is read by looking for a line break with dashes after it, again and again, and a line break
that was passed is not looked at a second time. So a body that takes no line at all is not seen:
the dashes below it are taken for its text, and from there on the blocks are out of step.

* `ParsesBlockByBlock`: the specifications are read as they were written, and where the frontmatter
  of one block is spoiled only that one is missing.
* `parsesBlockByBlock_iff`: when that is so. Surrounding blanks are trimmed from what is read.
-/

namespace Batty

/-- A task as the architect proposes it. -/
structure TaskSpec where
  title : String
  body : String
  priority : Option String
  dependsOn : List Nat
  tags : List String
deriving DecidableEq

/-! ### The parser -/

/-- The frontmatter of a block. -/
structure PlanFrontmatter where
  title : Option String
  priority : Option String
  dependsOn : Option (List Nat)
  tags : Option (List String)

def dashes : List Char := ['-', '-', '-']

/-- A line break with dashes after it. -/
def fence : List Char := '\n' :: dashes

def trimString (s : String) : String := String.ofList (Text.trim s.toList)

/-- The text without a line break at its start. -/
def dropLineBreak : List Char → List Char
  | '\n' :: text => text
  | text => text

/-- The body of a block, and the rest from the line break before the next dashes on. -/
def cutBody (text : List Char) : List Char × List Char :=
  match splitOnce fence text with
  | some (bodyRaw, rest) => (bodyRaw, fence ++ rest)
  | none => (text, [])

/-- The frontmatter and the body of the first block, and the rest; nothing if no block is opened or
its frontmatter has no end. -/
def cutBlock (rest : List Char) : Option (List Char × List Char × List Char) :=
  let rest := Text.trimStartMatches Text.isWhitespace rest
  if dashes <+: rest then
    match splitOnce fence (dropLineBreak (rest.drop dashes.length)) with
    | none => none
    | some (frontmatterRaw, afterFrontmatter) =>
      some (frontmatterRaw, cutBody (dropLineBreak afterFrontmatter))
  else none

section

variable {text rest : List Char}

theorem length_dropLineBreak_le (text : List Char) :
    (dropLineBreak text).length ≤ text.length := by
  unfold dropLineBreak
  split <;> simp

theorem length_cutBody_le (text : List Char) : (cutBody text).2.length ≤ text.length := by
  unfold cutBody
  split
  · rename_i bodyRaw rest hsplit
    rw [eq_of_splitOnce hsplit]
    simp only [List.length_append]
    omega
  · exact Nat.zero_le _

/-- Dashes were passed, so less is left. -/
theorem length_lt_of_cutBlock {frontmatterRaw bodyRaw next : List Char}
    (h : cutBlock rest = some (frontmatterRaw, bodyRaw, next)) : next.length < rest.length := by
  rw [cutBlock, Option.ite_none_right_eq_some] at h
  obtain ⟨hopen, h⟩ := h
  split at h
  · cases h
  · rename_i frontmatter afterFrontmatter hsplit
    obtain ⟨rfl, hbody⟩ := Prod.mk.inj (Option.some.inj h)
    have hnext := length_cutBody_le (dropLineBreak afterFrontmatter)
    have hafter := length_dropLineBreak_le afterFrontmatter
    have hdrop := length_dropLineBreak_le
      ((Text.trimStartMatches Text.isWhitespace rest).drop dashes.length)
    have htrim := (List.dropWhile_suffix Text.isWhitespace (l := rest)).length_le
    have hopened := hopen.length_le
    rw [eq_of_splitOnce hsplit] at hdrop
    rw [hbody] at hnext
    simp only [List.length_append, List.length_drop, Text.trimStartMatches, dashes, List.length_cons,
      List.length_nil] at hdrop hopened hnext
    omega

end

section

-- how a text reads as YAML, if it is a frontmatter
variable (yaml : List Char → Option PlanFrontmatter)

/-- What a block says, if its frontmatter can be read and has a title. -/
def blockSpec (frontmatterRaw bodyRaw : List Char) : Option TaskSpec :=
  match yaml frontmatterRaw with
  | none => none
  | some frontmatter =>
    match frontmatter.title.map trimString with
    | none => none
    | some title =>
      if title = "" then none
      else some {
        title
        body := String.ofList (Text.trim bodyRaw)
        priority := frontmatter.priority.map trimString
        dependsOn := frontmatter.dependsOn.getD []
        tags := frontmatter.tags.getD [] }

def parseBlocks (rest : List Char) : List TaskSpec :=
  match _hcut : cutBlock rest with
  | none => []
  | some (frontmatterRaw, bodyRaw, next) =>
    (blockSpec yaml frontmatterRaw bodyRaw).toList ++ parseBlocks next
termination_by rest.length
decreasing_by exact length_lt_of_cutBlock _hcut

def parsePlanningResponse (response : List Char) : List TaskSpec :=
  parseBlocks yaml (Text.trim response)

end

/-! ### Responses that are written block by block -/

/-- No line of the text starts with dashes. -/
def Fenceless (text : List Char) : Prop := ¬ fence <:+: '\n' :: text

/-- A block as it is written. A body that is empty takes an empty line, or none at all. -/
structure Block where
  frontmatter : List Char
  body : List Char
  emptyLine : Bool
  frontmatter_fenceless : Fenceless frontmatter
  body_fenceless : Fenceless body

namespace Block

/-- The body takes a line. -/
def HasBodyLine (block : Block) : Prop := block.body ≠ [] ∨ block.emptyLine = true

instance (block : Block) : Decidable block.HasBodyLine :=
  inferInstanceAs (Decidable (_ ∨ _))

def head (block : Block) : List Char := dashes ++ '\n' :: (block.frontmatter ++ fence)

def tail (block : Block) : List Char :=
  '\n' :: if block.HasBodyLine then block.body ++ ['\n'] else []

def render (block : Block) : List Char := block.head ++ block.tail

end Block

def renderBlocks (blocks : List Block) : List Char := blocks.flatMap Block.render

/-- A specification with the block that is written for it. -/
structure SpecBlock (yaml : List Char → Option PlanFrontmatter) extends Block where
  spec : TaskSpec
  title_nonempty : spec.title ≠ ""
  title_line : '\n' ∉ spec.title.toList
  body_eq : body = spec.body.toList
  reads : ∃ read, yaml frontmatter = some read ∧ read.title = some spec.title ∧
    read.priority = spec.priority ∧ read.dependsOn.getD [] = spec.dependsOn ∧
    read.tags.getD [] = spec.tags

/-- The text cannot be read as a frontmatter, or has no title. -/
def Titleless (yaml : List Char → Option PlanFrontmatter) (text : List Char) : Prop :=
  ∀ read ∈ yaml text, read.title = none

/-- The specifications are read as they were written, and without the one whose frontmatter is
spoiled. -/
structure ParsesBlockByBlock (yaml : List Char → Option PlanFrontmatter)
    (blocks : List (SpecBlock yaml)) : Prop where
  all : parsePlanningResponse yaml (renderBlocks (blocks.map SpecBlock.toBlock)) =
    blocks.map SpecBlock.spec
  without : ∀ before block after, blocks = before ++ block :: after → ∀ spoiled : Block,
    spoiled.body = block.body → spoiled.emptyLine = block.emptyLine →
    Titleless yaml spoiled.frontmatter →
    parsePlanningResponse yaml (renderBlocks (before.map SpecBlock.toBlock ++ spoiled ::
      after.map SpecBlock.toBlock)) = before.map SpecBlock.spec ++ after.map SpecBlock.spec

/-- No blanks surround the texts that are trimmed. -/
structure TaskSpec.Trimmed (spec : TaskSpec) : Prop where
  title : trimString spec.title = spec.title
  body : trimString spec.body = spec.body
  priority : spec.priority.map trimString = spec.priority

/-! ### Fences -/

section

variable {text : List Char}

theorem Fenceless.not_infix (h : Fenceless text) : ¬ fence <:+: text := fun hfence =>
  h (hfence.trans (List.infix_cons List.infix_rfl))

/-- The first line break with dashes after a text without a fence is the one that follows it. -/
theorem splitOnce_fence (h : ¬ fence <:+: text) (after : List Char) :
    splitOnce fence (text ++ (fence ++ after)) = some (text, after) := by
  rw [← List.append_assoc]
  exact splitOnce_append (by decide) h

/-- Dashes without a line break before them are not seen. -/
theorem Fenceless.not_infix_dashes (h : Fenceless text) : ¬ fence <:+: dashes ++ '\n' :: text := by
  have hcons : ∀ {text : List Char}, ¬ fence <:+: text → ¬ fence <:+: '-' :: text := by
    intro text hnot hinfix
    rcases List.infix_cons_iff.mp hinfix with hstart | hinfix
    · exact absurd (List.cons_prefix_cons.mp hstart).1 (by decide)
    · exact hnot hinfix
  exact hcons (hcons (hcons h))

end

/-! ### One block -/

section

variable {block : Block} {next : List Char}

theorem cutBlock_head (lead : List Char) (hlead : ∀ c ∈ lead, Text.isWhitespace c = true)
    (block : Block) (next : List Char) :
    cutBlock (lead ++ (block.head ++ next)) =
      some (block.frontmatter, cutBody (dropLineBreak next)) := by
  have hstart : Text.trimStartMatches Text.isWhitespace (lead ++ (block.head ++ next)) =
      block.head ++ next := by
    rw [Text.trimStartMatches, List.dropWhile_append_of_pos hlead]
    exact Text.dropWhile_of_head fun c hc => by
      obtain rfl : '-' = c := by simpa [Block.head, dashes] using hc
      decide
  have hopen : (block.head ++ next).drop dashes.length =
      '\n' :: (block.frontmatter ++ (fence ++ next)) := by
    simp [Block.head, dashes]
  rw [cutBlock, hstart, if_pos (by simp [Block.head]), hopen, dropLineBreak,
    splitOnce_fence block.frontmatter_fenceless.not_infix]

end

/-! ### The trimmed response -/

namespace Block

/-- What comes after the second dashes of a block that is the last one. -/
def closedTail (block : Block) : List Char :=
  if Text.trimEndMatches Text.isWhitespace block.body = [] then []
  else '\n' :: Text.trimEndMatches Text.isWhitespace block.body

theorem trimEnd_tail (block : Block) :
    Text.trimEndMatches Text.isWhitespace block.tail = block.closedTail := by
  have hbreak : Text.trimEndMatches Text.isWhitespace ['\n'] = [] := by decide
  rw [tail, closedTail]
  split
  · rw [← List.singleton_append, Text.trimEndMatches_append,
      Text.trimEndMatches_append _ block.body, if_pos hbreak, hbreak]
    rfl
  · rename_i hnone
    simp only [HasBodyLine, not_or, not_not] at hnone
    rw [hbreak, hnone.1]
    rfl

theorem dropLineBreak_closedTail (block : Block) :
    dropLineBreak block.closedTail = Text.trimEndMatches Text.isWhitespace block.body := by
  rw [closedTail]
  split
  · rename_i hempty
    rw [hempty]
    rfl
  · rfl

theorem trimEnd_head_append (block : Block) (text : List Char) :
    Text.trimEndMatches Text.isWhitespace (block.head ++ text) =
      block.head ++ Text.trimEndMatches Text.isWhitespace text := by
  rw [Text.trimEndMatches_append]
  split
  · rename_i hempty
    have hhead : block.head = (dashes ++ '\n' :: block.frontmatter ++ ['\n', '-', '-']) ++ ['-'] := by
      simp [head, fence, dashes]
    rw [hempty, List.append_nil, hhead, Text.trimEndMatches_append]
    rfl
  · rfl

end Block

/-- The response without the blanks around it. -/
def closedText : List Block → List Char
  | [] => []
  | [block] => block.head ++ block.closedTail
  | block :: next :: blocks => block.head ++ (block.tail ++ closedText (next :: blocks))

theorem exists_closedText_cons (block : Block) (blocks : List Block) :
    ∃ text, closedText (block :: blocks) = block.head ++ text := by
  cases blocks <;> exact ⟨_, rfl⟩

theorem trim_renderBlocks (blocks : List Block) :
    Text.trim (renderBlocks blocks) = closedText blocks := by
  have hstart : Text.trimStartMatches Text.isWhitespace (renderBlocks blocks) =
      renderBlocks blocks := by
    refine Text.dropWhile_of_head fun c hc => ?_
    cases blocks with
    | nil => cases hc
    | cons block blocks =>
      obtain rfl : '-' = c := by simpa [renderBlocks, Block.render, Block.head, dashes] using hc
      decide
  rw [Text.trim, hstart]
  clear hstart
  induction blocks with
  | nil => rfl
  | cons block blocks ih =>
    rw [renderBlocks, List.flatMap_cons, Block.render, List.append_assoc,
      Block.trimEnd_head_append]
    cases blocks with
    | nil =>
      rw [List.flatMap_nil, List.append_nil, Block.trimEnd_tail]
      rfl
    | cons next blocks =>
      have hnext : Text.trimEndMatches Text.isWhitespace
          ((next :: blocks).flatMap Block.render) = closedText (next :: blocks) := ih
      obtain ⟨text, htext⟩ := exists_closedText_cons next blocks
      rw [Text.trimEndMatches_append, hnext, if_neg]
      · rfl
      · rw [htext]
        simp [Block.head, dashes]

/-! ### Reading the blocks -/

section

variable {yaml : List Char → Option PlanFrontmatter}

theorem parseBlocks_of_cutBlock {rest frontmatterRaw bodyRaw next : List Char}
    (h : cutBlock rest = some (frontmatterRaw, bodyRaw, next)) :
    parseBlocks yaml rest =
      (blockSpec yaml frontmatterRaw bodyRaw).toList ++ parseBlocks yaml next := by
  rw [parseBlocks]
  split
  · rename_i hnone
    rw [h] at hnone
    cases hnone
  · rename_i frontmatter body rest' hsome
    rw [h] at hsome
    cases hsome
    rfl

theorem parseBlocks_of_none {rest : List Char} (h : cutBlock rest = none) :
    parseBlocks yaml rest = [] := by
  rw [parseBlocks]
  split
  · rfl
  · rename_i hsome
    rw [h] at hsome
    cases hsome

theorem blockSpec_trimEnd (frontmatterRaw bodyRaw : List Char) :
    blockSpec yaml frontmatterRaw (Text.trimEndMatches Text.isWhitespace bodyRaw) =
      blockSpec yaml frontmatterRaw bodyRaw := by
  unfold blockSpec
  rw [Text.trim_trimEndMatches]

/-- The last block, after blanks. -/
theorem parseBlocks_last {lead : List Char} (hlead : ∀ c ∈ lead, Text.isWhitespace c = true)
    (block : Block) : parseBlocks yaml (lead ++ closedText [block]) =
      (blockSpec yaml block.frontmatter block.body).toList := by
  have hnone : splitOnce fence (Text.trimEndMatches Text.isWhitespace block.body) = none :=
    splitOnce_eq_none_iff.mpr fun hfence => block.body_fenceless.not_infix
      (hfence.trans (Text.trimEndMatches_isPrefix _ _).isInfix)
  have hcut := cutBlock_head lead hlead block block.closedTail
  rw [Block.dropLineBreak_closedTail, cutBody, hnone] at hcut
  rw [closedText, parseBlocks_of_cutBlock hcut, blockSpec_trimEnd, parseBlocks_of_none (by decide),
    List.append_nil]

/-- A block that is followed by another one is read as it was written if its body takes a line. -/
theorem parseBlocks_next {lead : List Char} (hlead : ∀ c ∈ lead, Text.isWhitespace c = true)
    {block : Block} (hline : block.HasBodyLine) (next : Block) (blocks : List Block) :
    parseBlocks yaml (lead ++ closedText (block :: next :: blocks)) =
      (blockSpec yaml block.frontmatter block.body).toList ++
        parseBlocks yaml (['\n'] ++ closedText (next :: blocks)) := by
  obtain ⟨text, htext⟩ := exists_closedText_cons next blocks
  have hbody : dropLineBreak (block.tail ++ closedText (next :: blocks)) =
      block.body ++ (fence ++ '\n' :: (next.frontmatter ++ (fence ++ text))) := by
    simp [Block.tail, hline, htext, Block.head, fence, dropLineBreak]
  have hcut := cutBlock_head lead hlead block (block.tail ++ closedText (next :: blocks))
  rw [hbody, cutBody, splitOnce_fence block.body_fenceless.not_infix] at hcut
  rw [closedText, parseBlocks_of_cutBlock hcut, htext]
  simp [Block.head, fence]

/-- A body that takes no line is read as the dashes and the frontmatter of the next block. -/
theorem parseBlocks_next_of_not {lead : List Char} (hlead : ∀ c ∈ lead, Text.isWhitespace c = true)
    {block : Block} (hline : ¬ block.HasBodyLine) (next : Block) (blocks : List Block) :
    ∃ rest, parseBlocks yaml (lead ++ closedText (block :: next :: blocks)) =
      (blockSpec yaml block.frontmatter (dashes ++ '\n' :: next.frontmatter)).toList ++ rest := by
  obtain ⟨text, htext⟩ := exists_closedText_cons next blocks
  have hbody : dropLineBreak (block.tail ++ closedText (next :: blocks)) =
      (dashes ++ '\n' :: next.frontmatter) ++ (fence ++ text) := by
    simp [Block.tail, hline, htext, Block.head, dropLineBreak]
  have hcut := cutBlock_head lead hlead block (block.tail ++ closedText (next :: blocks))
  rw [hbody, cutBody, splitOnce_fence next.frontmatter_fenceless.not_infix_dashes] at hcut
  rw [closedText, parseBlocks_of_cutBlock hcut]
  exact ⟨_, rfl⟩

/-- **Blocks are read one by one** if the bodies between two blocks take a line. -/
theorem parseBlocks_closedText (blocks : List Block)
    (hlines : ∀ block ∈ blocks.dropLast, block.HasBodyLine) (lead : List Char)
    (hlead : ∀ c ∈ lead, Text.isWhitespace c = true) :
    parseBlocks yaml (lead ++ closedText blocks) =
      blocks.flatMap fun block => (blockSpec yaml block.frontmatter block.body).toList := by
  induction blocks generalizing lead with
  | nil =>
    refine parseBlocks_of_none ?_
    rw [closedText, List.append_nil, cutBlock, Text.trimStartMatches,
      List.dropWhile_eq_nil_iff.mpr hlead]
    decide
  | cons block blocks ih =>
    cases blocks with
    | nil =>
      rw [parseBlocks_last hlead, List.flatMap_singleton]
    | cons next blocks =>
      rw [List.dropLast_cons_cons, List.forall_mem_cons] at hlines
      rw [parseBlocks_next hlead hlines.1, ih hlines.2 _ (List.forall_mem_singleton.mpr rfl)]
      rfl

theorem parsePlanningResponse_renderBlocks (blocks : List Block)
    (hlines : ∀ block ∈ blocks.dropLast, block.HasBodyLine) :
    parsePlanningResponse yaml (renderBlocks blocks) =
      blocks.flatMap fun block => (blockSpec yaml block.frontmatter block.body).toList := by
  rw [parsePlanningResponse, trim_renderBlocks]
  exact parseBlocks_closedText blocks hlines [] nofun

end

/-! ### When the specifications are read back -/

@[simp] theorem trimString_trimString (s : String) : trimString (trimString s) = trimString s := by
  simp [trimString, Text.trim_trim]

section

variable {yaml : List Char → Option PlanFrontmatter}

theorem trimmed_of_blockSpec {frontmatterRaw bodyRaw : List Char} {spec : TaskSpec}
    (h : blockSpec yaml frontmatterRaw bodyRaw = some spec) : spec.Trimmed := by
  unfold blockSpec at h
  split at h
  · cases h
  · rename_i frontmatter _
    split at h
    · cases h
    · rename_i title htitle
      obtain ⟨title, -, rfl⟩ := Option.map_eq_some_iff.mp htitle
      rw [Option.ite_none_left_eq_some] at h
      obtain rfl := Option.some.inj h.2
      refine ⟨trimString_trimString title, ?_, ?_⟩
      · simp [trimString, Text.trim_trim]
      · simp [Function.comp_def]

/-- Whatever is read is trimmed. -/
theorem trimmed_of_mem_parseBlocks {rest : List Char} {spec : TaskSpec}
    (h : spec ∈ parseBlocks yaml rest) : spec.Trimmed := by
  induction hlength : rest.length using Nat.strong_induction_on generalizing rest with
  | _ length ih =>
    cases hcut : cutBlock rest with
    | none =>
      rw [parseBlocks_of_none hcut] at h
      cases h
    | some found =>
      obtain ⟨frontmatterRaw, bodyRaw, next⟩ := found
      rw [parseBlocks_of_cutBlock hcut] at h
      rcases List.mem_append.mp h with hhead | hnext
      · exact trimmed_of_blockSpec (Option.mem_toList.mp hhead)
      · exact ih _ (hlength ▸ length_lt_of_cutBlock hcut) hnext rfl

theorem blockSpec_of_trimmed (block : SpecBlock yaml) (h : block.spec.Trimmed)
    (bodyRaw : List Char) : blockSpec yaml block.frontmatter bodyRaw =
      some { block.spec with body := String.ofList (Text.trim bodyRaw) } := by
  obtain ⟨read, hread, htitle, hpriority, hdeps, htags⟩ := block.reads
  unfold blockSpec
  simp only [hread, htitle, hpriority, hdeps, htags, Option.map_some, h.title, h.priority,
    if_neg block.title_nonempty]

theorem blockSpec_body (block : SpecBlock yaml) (h : block.spec.Trimmed) :
    blockSpec yaml block.frontmatter block.body = some block.spec := by
  rw [blockSpec_of_trimmed block h, block.body_eq]
  exact congrArg some (by rw [show String.ofList _ = block.spec.body from h.body])

/-- The bodies take a line if the specifications are read back. -/
theorem hasBodyLine_of_parseBlocks (blocks : List (SpecBlock yaml)) (lead : List Char)
    (hlead : ∀ c ∈ lead, Text.isWhitespace c = true)
    (htrimmed : ∀ block ∈ blocks, block.spec.Trimmed)
    (h : parseBlocks yaml (lead ++ closedText (blocks.map SpecBlock.toBlock)) =
      blocks.map SpecBlock.spec) :
    ∀ block ∈ blocks.dropLast, block.HasBodyLine := by
  induction blocks generalizing lead with
  | nil => exact fun _ hmem => absurd hmem List.not_mem_nil
  | cons block blocks ih =>
    cases blocks with
    | nil => exact fun _ hmem => absurd hmem List.not_mem_nil
    | cons next blocks =>
      obtain ⟨hblock, hblocks⟩ := List.forall_mem_cons.mp htrimmed
      by_cases hline : block.HasBodyLine
      · rw [List.map_cons, List.map_cons, parseBlocks_next hlead hline, blockSpec_body block hblock]
          at h
        exact List.forall_mem_cons.mpr ⟨hline,
          ih _ (List.forall_mem_singleton.mpr rfl) hblocks (List.cons.inj h).2⟩
      · obtain ⟨rest, hrest⟩ := parseBlocks_next_of_not hlead hline next.toBlock
          (blocks.map SpecBlock.toBlock)
        rw [List.map_cons, List.map_cons, hrest, blockSpec_of_trimmed block hblock] at h
        have hbody : String.ofList (Text.trim (dashes ++ '\n' :: next.frontmatter)) =
            block.spec.body := congrArg TaskSpec.body (List.cons.inj h).1
        have hempty : block.spec.body.toList = [] := by
          simpa [Block.HasBodyLine, block.body_eq] using (not_or.mp hline).1
        rw [← hbody, String.toList_ofList] at hempty
        exact absurd hempty (Text.trim_cons_ne_nil (by decide) _)

theorem hasBodyLine_of_parsesBlockByBlock {blocks : List (SpecBlock yaml)}
    (h : ParsesBlockByBlock yaml blocks) : (∀ block ∈ blocks, block.spec.Trimmed) ∧
      ∀ block ∈ blocks.dropLast, block.HasBodyLine := by
  have hall := h.all
  have htrimmed : ∀ block ∈ blocks, block.spec.Trimmed := fun block hmem =>
    trimmed_of_mem_parseBlocks (hall ▸ List.mem_map_of_mem hmem)
  rw [parsePlanningResponse, trim_renderBlocks] at hall
  exact ⟨htrimmed, hasBodyLine_of_parseBlocks blocks [] nofun htrimmed hall⟩

/-- **When the specifications are read back**, with one of them spoiled or none. -/
theorem parsesBlockByBlock_iff (yaml : List Char → Option PlanFrontmatter)
    (blocks : List (SpecBlock yaml)) :
    ParsesBlockByBlock yaml blocks ↔ (∀ block ∈ blocks, block.spec.Trimmed) ∧
      ∀ block ∈ blocks.dropLast, block.body ≠ [] ∨ block.emptyLine = true := by
  refine ⟨hasBodyLine_of_parsesBlockByBlock, ?_⟩
  · rintro ⟨htrimmed, hlines⟩
    have hspecs : ∀ {chosen : List (SpecBlock yaml)}, (∀ block ∈ chosen, block.spec.Trimmed) →
        (chosen.map SpecBlock.toBlock).flatMap
          (fun block => (blockSpec yaml block.frontmatter block.body).toList) =
            chosen.map SpecBlock.spec := by
      intro chosen hchosen
      induction chosen with
      | nil => rfl
      | cons block chosen ih =>
        obtain ⟨hblock, hchosen⟩ := List.forall_mem_cons.mp hchosen
        rw [List.map_cons, List.flatMap_cons, blockSpec_body block hblock, ih hchosen]
        rfl
    -- Whether a body takes a line does not depend on the frontmatter.
    have hread : ∀ written : List Block, written.map (fun block => (block.body, block.emptyLine)) =
        blocks.map (fun block => (block.body, block.emptyLine)) →
          parsePlanningResponse yaml (renderBlocks written) = written.flatMap fun block =>
            (blockSpec yaml block.frontmatter block.body).toList := by
      intro written hsame
      refine parsePlanningResponse_renderBlocks written fun block hmem => ?_
      have hmem' := List.mem_map_of_mem (f := fun block : Block => (block.body, block.emptyLine)) hmem
      rw [List.map_dropLast, hsame, ← List.map_dropLast] at hmem'
      obtain ⟨original, horiginal, heq⟩ := List.mem_map.mp hmem'
      obtain ⟨hbody, hline⟩ := Prod.mk.inj heq
      have hhas := hlines original horiginal
      rwa [hbody, hline] at hhas
    refine ⟨?_, ?_⟩
    · rw [hread _ (by rw [List.map_map]; rfl), hspecs htrimmed]
    · rintro before block after rfl spoiled hbody hline htitleless
      have hspoiled : blockSpec yaml spoiled.frontmatter spoiled.body = none := by
        unfold blockSpec
        split
        · rfl
        · rename_i read hsome
          rw [htitleless read hsome, Option.map_none]
      rw [hread _ (by simp [hbody, hline, Function.comp_def]), List.flatMap_append,
        List.flatMap_cons, hspoiled, Option.toList_none, List.nil_append,
        hspecs fun other hmem => htrimmed other (List.mem_append_left _ hmem),
        hspecs fun other hmem => htrimmed other
          (List.mem_append_right _ (List.mem_cons_of_mem _ hmem))]

end

/-! ### A body without a line -/

instance (text : List Char) : Decidable (Fenceless text) :=
  inferInstanceAs (Decidable (¬ fence <:+: '\n' :: text))

/-- A frontmatter of one line that gives the title. -/
def titleLine (text : List Char) : Option PlanFrontmatter :=
  if "title: ".toList <+: text ∧ '\n' ∉ text then
    some {
      title := some (String.ofList (text.drop 7))
      priority := none
      dependsOn := none
      tags := none }
  else none

/-- A specification without a body, which takes no line. -/
def bodilessBlock (title : String) (hne : title ≠ "") (hline : '\n' ∉ title.toList)
    (hfence : Fenceless ("title: ".toList ++ title.toList)) : SpecBlock titleLine where
  frontmatter := "title: ".toList ++ title.toList
  body := []
  emptyLine := false
  frontmatter_fenceless := hfence
  body_fenceless := by decide
  spec := { title, body := "", priority := none, dependsOn := [], tags := [] }
  title_nonempty := hne
  title_line := hline
  body_eq := rfl
  reads := by
    have hnoBreak : '\n' ∉ "title: ".toList ++ title.toList := by
      rw [List.mem_append, not_or]
      exact ⟨by decide, hline⟩
    exact ⟨_, if_pos ⟨List.prefix_append _ _, hnoBreak⟩, congrArg some String.ofList_toList, rfl,
      rfl, rfl⟩

/-- The second specification is taken for the body of the first one. -/
theorem not_parsesBlockByBlock : ¬ ∀ (yaml : List Char → Option PlanFrontmatter)
    (blocks : List (SpecBlock yaml)), ParsesBlockByBlock yaml blocks := by
  intro h
  have hlines := (hasBodyLine_of_parsesBlockByBlock (h titleLine
    [bodilessBlock "lexer" (by decide) (by decide) (by decide),
      bodilessBlock "parser" (by decide) (by decide) (by decide)])).2
  exact absurd (hlines _ List.mem_cons_self) (by decide)

end Batty
