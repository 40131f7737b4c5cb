import Batty.Config.ProjectRouting

/-!
# Taking a project without asking

What routing promises: a project that is taken without asking leads, and if the message names a
control verb the message also identifies the project; and a project that the message names is
among the candidates with a score of at least 98. A word is named here if it stands in the message
as a whole: no letter or digit next to it, and no hyphen or underscore that joins it to one. A full
stop ends a word, with a blank behind it or without.

Between the words of the message and the answer lie the texts of the reasons. That the three
phrases looked for in a reason stand for the evidence they are written for is
`score_of_because`; with it a decision without a question is one about scores only
(`resolves_unasked_iff`).
-/

namespace Batty

namespace Projects

variable {project : RegisteredProject} {routingState : ProjectRoutingState}
  {request : ProjectRoutingRequest}

/-! ### Words of a message -/

/-- A word goes on with a letter or a digit, or with a hyphen or an underscore that joins one. -/
def goesOn : List Char → Bool
  | [] => false
  | [ch] => ch.isAlphanum
  | ch :: next :: _ => ch.isAlphanum || (ch = '-' || ch = '_') && next.isAlphanum

/-- The word stands in the text as a whole, whatever punctuation there is before and behind it. -/
def Mentions (text word : List Char) : Prop :=
  ∃ before after, text = before ++ word ++ after ∧
    goesOn before.reverse = false ∧ goesOn after = false

theorem Mentions.infix {text word : List Char} (h : Mentions text word) : word <:+: text := by
  obtain ⟨before, after, rfl, -⟩ := h
  exact ⟨before, after, rfl⟩

/-- Where a token ends, so does a word: each character a word goes on with belongs to tokens. -/
theorem goesOn_eq_false {rest : List Char} (h : ∀ ch ∈ rest.head?, isTokenChar ch = false) :
    goesOn rest = false := by
  cases rest with
  | nil => rfl
  | cons ch rest =>
    have hch := h ch rfl
    simp only [isTokenChar, Bool.or_eq_false_iff] at hch
    obtain ⟨⟨⟨hletter, hhyphen⟩, hunderscore⟩, -⟩ := hch
    cases rest with
    | nil => exact hletter
    | cons next rest => simp [goesOn, hletter, hhyphen, hunderscore]

/-- What is a word of the message for the code is named in it. -/
theorem mentions_of_mem_tokens {word : List Char} (h : word ∈ request.tokens) :
    Mentions request.lower word := by
  obtain ⟨-, -, before, after, htext, hbefore, hafter⟩ := mem_words_iff.mp h
  refine ⟨before, after, htext, goesOn_eq_false ?_, goesOn_eq_false hafter⟩
  rwa [List.head?_reverse]

/-! ### Evidence and its texts -/

theorem le_foldl_max {n : Nat} (m : Nat) (l : List Nat) :
    n ≤ l.foldl max m ↔ n ≤ m ∨ ∃ a ∈ l, n ≤ a := by
  induction l generalizing m with
  | nil => simp
  | cons a l ih =>
    rw [List.foldl_cons, ih, le_max_iff]
    simp [or_assoc]

theorem le_score_iff {n : Nat} (hn : 0 < n) :
    n ≤ score project routingState request ↔
      ∃ entry ∈ evidence project routingState request, n ≤ entry.1 := by
  rw [score, le_foldl_max]
  simp only [List.mem_map, exists_exists_and_eq_and, Nat.le_zero]
  exact or_iff_right (by omega)

theorem eq_of_threadBindingMatch {reason : String}
    (h : threadBindingMatch project request = some reason) : reason = threadBindingReason := by
  simp only [threadBindingMatch, Option.bind_eq_bind, Option.bind_eq_some_iff,
    Option.ite_none_right_eq_some] at h
  obtain ⟨-, -, -, -, -, -, -, hreason⟩ := h
  exact (Option.some.inj hreason).symm

theorem eq_of_channelBindingMatch {reason : String}
    (h : channelBindingMatch project request = some reason) : reason = "channel binding match" := by
  simp only [channelBindingMatch, Option.bind_eq_bind, Option.bind_eq_some_iff,
    Option.ite_none_right_eq_some] at h
  obtain ⟨-, -, -, -, -, hreason⟩ := h
  exact (Option.some.inj hreason).symm

/-- The texts of evidence, with the score each of them comes with. -/
theorem evidence_cases {entry : Nat × String} (h : entry ∈ evidence project routingState request) :
    entry = (100, projectIdReason) ∧ mentionsProjectId project request = true ∨
    entry = (98, aliasReason) ∧ mentionsAlias project request = true ∨
    entry = (100, threadBindingReason) ∧ (threadBindingMatch project request).isSome ∨
    entry.1 < 98 ∧ (entry.2 ∈ ["project name mention", "channel binding match",
        "active project selected for this thread", "active project selected for this channel",
        "global active project selection"] ∨
      entry.2 = tagReason (mentionedTags project request)) := by
  simp only [evidence, List.mem_append] at h
  rcases h with ((((h | h) | h) | h) | h) | h
  · split at h
    · exact .inl ⟨by simpa using h, ‹_›⟩
    · cases h
  · split at h
    · exact .inr (.inl ⟨by simpa using h, ‹_›⟩)
    · cases h
  · split at h
    · rw [List.mem_singleton.mp h]
      exact .inr (.inr (.inr ⟨by decide, .inl (by decide)⟩))
    · cases h
  · split at h
    · cases h
    · rw [List.mem_singleton.mp h]
      exact .inr (.inr (.inr ⟨show 70 < 98 by decide, .inr rfl⟩))
  · cases hthread : threadBindingMatch project request with
    | some reason =>
      rw [hthread, eq_of_threadBindingMatch hthread] at h
      exact .inr (.inr (.inl ⟨by simpa using h, rfl⟩))
    | none =>
      rw [hthread] at h
      cases hchannel : channelBindingMatch project request with
      | some reason =>
        rw [hchannel, eq_of_channelBindingMatch hchannel] at h
        rw [List.mem_singleton.mp h]
        exact .inr (.inr (.inr ⟨by decide, .inl (by decide)⟩))
      | none =>
        rw [hchannel] at h
        cases h
  · rw [Option.mem_toList] at h
    obtain ⟨selection, -, h⟩ := Option.bind_eq_some_iff.mp h
    split at h
    · rw [Option.ite_none_right_eq_some] at h
      rw [← Option.some.inj h.2]
      exact .inr (.inr (.inr ⟨by decide, .inl (by decide)⟩))
    · rw [Option.ite_none_right_eq_some] at h
      rw [← Option.some.inj h.2]
      exact .inr (.inr (.inr ⟨by decide, .inl (by decide)⟩))
    · rw [← Option.some.inj h]
      exact .inr (.inr (.inr ⟨by decide, .inl (by decide)⟩))

/-- Only an id, an alias or a thread binding gives a project 98 points. -/
theorem ninetyEight_le_score_iff :
    98 ≤ score project routingState request ↔ mentionsProjectId project request = true ∨
      mentionsAlias project request = true ∨ (threadBindingMatch project request).isSome := by
  rw [le_score_iff (by decide)]
  constructor
  · rintro ⟨entry, hentry, hle⟩
    rcases evidence_cases hentry with ⟨-, h⟩ | ⟨-, h⟩ | ⟨-, h⟩ | ⟨hlt, -⟩
    · exact .inl h
    · exact .inr (.inl h)
    · exact .inr (.inr h)
    · omega
  · rintro (h | h | h)
    · exact ⟨(100, projectIdReason), by simp [evidence, h], by decide⟩
    · exact ⟨(98, aliasReason), by simp [evidence, h], by decide⟩
    · obtain ⟨reason, hreason⟩ := Option.isSome_iff_exists.mp h
      exact ⟨(100, reason), by simp [evidence, hreason], by simp⟩

/-! ### Phrases in a reason -/

/-- The three phrases that a reason is searched for. -/
def soughtPhrases : List String := [threadBindingReason, projectIdReason, aliasReason]

/-- The tags that a message mentions are words of it, so no phrase of several words is found in
the text about them. -/
theorem not_infix_tagReason {phrase : String} (hphrase : phrase ∈ soughtPhrases) :
    ¬ phrase.toList <:+: (tagReason (mentionedTags project request)).toList := by
  -- What matters of the phrases: no comma or parenthesis, a blank, and none of the fixed text.
  have hshape : ∀ phrase ∈ soughtPhrases, phrase.toList ≠ [] ∧ '(' ∉ phrase.toList ∧
      ')' ∉ phrase.toList ∧ ',' ∉ phrase.toList ∧ ' ' ∉ phrase.toList.head? ∧
      ' ' ∈ phrase.toList ∧ ¬ phrase.toList <:+: "tag match ".toList := by decide
  obtain ⟨hne, hopen, hclose, hcomma, hhead, hspace, hfront⟩ := hshape phrase hphrase
  intro h
  have htext : (tagReason (mentionedTags project request)).toList = "tag match ".toList ++
      '(' :: ([',', ' '].intercalate ((mentionedTags project request).map String.toList) ++
        ')' :: []) := by
    simp [tagReason, String.toList_intercalate]
  rw [htext] at h
  rcases infix_append_cons hopen h with h | h
  · exact hfront h
  rcases infix_append_cons hclose h with h | h
  · obtain ⟨piece, hmem, h⟩ := infix_intercalate hcomma hhead hne h
    obtain ⟨tag, htag, rfl⟩ := List.mem_map.mp hmem
    have htoken : tag.toList ∈ request.tokens := by
      simpa [mentionedTags] using (List.mem_filter.mp htag).2
    have hchars := (mem_words_iff.mp htoken).2.1 ' ' (h.subset hspace)
    exact absurd hchars (by decide)
  · exact hne (List.eq_nil_of_infix_nil h)

/-- A phrase in the joined reasons is in one of them, as no phrase crosses a semicolon. -/
theorem exists_reason_of_infix {phrase : String} (hphrase : phrase ∈ soughtPhrases)
    {reasons : List String} (h : phrase.toList <:+: ("; ".intercalate reasons).toList) :
    ∃ reason ∈ reasons, phrase.toList <:+: reason.toList := by
  have hshape : ∀ phrase ∈ soughtPhrases, phrase.toList ≠ [] ∧ ';' ∉ phrase.toList ∧
      ' ' ∉ phrase.toList.head? := by decide
  obtain ⟨hne, hsemicolon, hhead⟩ := hshape phrase hphrase
  rw [String.toList_intercalate] at h
  obtain ⟨piece, hpiece, hinfix⟩ := infix_intercalate hsemicolon hhead hne h
  obtain ⟨reason, hreason, rfl⟩ := List.mem_map.mp hpiece
  exact ⟨reason, hreason, hinfix⟩

theorem of_scoreProject {candidate : ProjectRoutingCandidate}
    (h : scoreProject routingState request project = some candidate) :
    candidate.projectId = project.projectId ∧
      candidate.score = score project routingState request := by
  rw [scoreProject, Option.ite_none_left_eq_some] at h
  rw [← Option.some.inj h.2]
  simp only [and_self]

theorem reason_of_scoreProject {candidate : ProjectRoutingCandidate}
    (h : scoreProject routingState request project = some candidate) :
    candidate.reason =
      "; ".intercalate ((evidence project routingState request).map (·.2)) := by
  rw [scoreProject, Option.ite_none_left_eq_some] at h
  rw [← Option.some.inj h.2]

/-- A candidate whose reason holds one of the phrases has the score that goes with it. -/
theorem score_of_because {candidate : ProjectRoutingCandidate} {phrase : String}
    (h : scoreProject routingState request project = some candidate)
    (hphrase : phrase ∈ soughtPhrases) (hbecause : candidate.because phrase) :
    98 ≤ candidate.score := by
  have hinfix : phrase.toList <:+: candidate.reason.toList := of_decide_eq_true hbecause
  rw [reason_of_scoreProject h] at hinfix
  obtain ⟨reason, hreason, hinfix⟩ := exists_reason_of_infix hphrase hinfix
  obtain ⟨entry, hentry, rfl⟩ := List.mem_map.mp hreason
  rw [(of_scoreProject h).2]
  refine (le_score_iff (by decide)).mpr ⟨entry, hentry, ?_⟩
  rcases evidence_cases hentry with ⟨rfl, -⟩ | ⟨rfl, -⟩ | ⟨rfl, -⟩ | ⟨-, hother | hother⟩
  · decide
  · decide
  · decide
  · have hnone : ∀ phrase ∈ soughtPhrases, ∀ reason ∈ ["project name mention",
        "channel binding match", "active project selected for this thread",
        "active project selected for this channel", "global active project selection"],
        ¬ phrase.toList <:+: reason.toList := by decide
    exact absurd hinfix (hnone phrase hphrase _ hother)
  · rw [hother] at hinfix
    exact absurd hinfix (not_infix_tagReason hphrase)

/-- What a project may be taken for without asking is a matter of its score alone. -/
theorem autoRouteAllowed_iff {candidate : ProjectRoutingCandidate}
    (h : scoreProject routingState request project = some candidate) (controlAction : Bool) :
    autoRouteAllowed candidate controlAction = true ↔
      (if controlAction then 98 else 80) ≤ candidate.score := by
  have hlow : ¬ 98 ≤ candidate.score → ∀ phrase ∈ soughtPhrases,
      candidate.because phrase = false := fun hlt phrase hphrase =>
    Bool.eq_false_iff.mpr fun hbecause => hlt (score_of_because h hphrase hbecause)
  unfold autoRouteAllowed
  by_cases hscore : 98 ≤ candidate.score
  · rw [if_pos hscore]
    cases controlAction <;> simp only [Bool.false_eq_true, if_false, if_true, true_iff] <;> omega
  · have hnone := hlow hscore
    rw [if_neg hscore, hnone threadBindingReason (by decide), hnone projectIdReason (by decide),
      hnone aliasReason (by decide)]
    cases controlAction <;> simp [hscore]

/-! ### The candidates -/

instance : Std.Total Better where
  total left right := by
    unfold Better
    rcases Nat.lt_trichotomy left.score right.score with h | h | h
    · exact .inr (.inl h)
    · rcases le_total left.projectId right.projectId with hid | hid
      · exact .inl (.inr ⟨h.symm, hid⟩)
      · exact .inr (.inr ⟨h, hid⟩)
    · exact .inl (.inl h)

instance : IsTrans ProjectRoutingCandidate Better where
  trans a b c hab hbc := by
    unfold Better at *
    rcases hab with hab | ⟨hab, hid⟩
    · rcases hbc with hbc | ⟨hbc, -⟩
      · exact .inl (hbc.trans hab)
      · exact .inl (hbc ▸ hab)
    · rcases hbc with hbc | ⟨hbc, hid'⟩
      · exact .inl (hab ▸ hbc)
      · exact .inr ⟨hbc.trans hab, hid.trans hid'⟩

theorem score_le_of_better {left right : ProjectRoutingCandidate} (h : Better left right) :
    right.score ≤ left.score := by
  rcases h with h | ⟨h, -⟩
  · exact h.le
  · exact h.le

namespace LoadedRegistry

variable {registry : LoadedRegistry}

theorem mem_candidates_iff {candidate : ProjectRoutingCandidate} :
    candidate ∈ registry.candidates routingState request ↔
      ∃ project ∈ registry.active, scoreProject routingState request project = some candidate := by
  rw [candidates, List.mem_insertionSort, List.mem_filterMap]

theorem exists_candidate (hproject : project ∈ registry.active)
    (hpos : 0 < score project routingState request) :
    ∃ candidate ∈ registry.candidates routingState request,
      scoreProject routingState request project = some candidate :=
  have h : scoreProject routingState request project = some _ := if_neg hpos.ne'
  ⟨_, mem_candidates_iff.mpr ⟨project, hproject, h⟩, h⟩

theorem eq_of_projectId {project' : RegisteredProject} (h : project ∈ registry.active)
    (h' : project' ∈ registry.active) (heq : project.projectId = project'.projectId) :
    project = project' :=
  List.inj_on_of_nodup_map registry.nodup_projectIds (List.mem_of_mem_filter h)
    (List.mem_of_mem_filter h') heq

theorem pairwise_candidates (routingState : ProjectRoutingState)
    (request : ProjectRoutingRequest) :
    (registry.candidates routingState request).Pairwise
      fun left right => Better left right ∧ left.projectId ≠ right.projectId := by
  refine List.Pairwise.and (List.pairwise_insertionSort _ _) ?_
  have hactive : registry.active.Pairwise fun left right => left.projectId ≠ right.projectId :=
    (List.pairwise_map.mp registry.nodup_projectIds).filter _
  refine (List.perm_insertionSort _ _).symm.pairwise ?_ fun h => h.symm
  refine List.pairwise_filterMap.mpr (hactive.imp fun hne candidate h candidate' h' => ?_)
  rw [(of_scoreProject h).1, (of_scoreProject h').1]
  exact hne

/-- The project has the score to be taken, and every other one has at least 11 points less. -/
def Leads (registry : LoadedRegistry) (routingState : ProjectRoutingState)
    (request : ProjectRoutingRequest) (project : RegisteredProject) : Prop :=
  80 ≤ score project routingState request ∧ ∀ other ∈ registry.active, other ≠ project →
    score other routingState request + 11 ≤ score project routingState request

/-- The candidate of the project that leads comes first, and no other comes near. -/
theorem candidates_of_leads (hproject : project ∈ registry.active)
    (hleads : registry.Leads routingState request project) :
    ∃ top rest, registry.candidates routingState request = top :: rest ∧
      scoreProject routingState request project = some top ∧
      ∀ second ∈ rest, second.score + 11 ≤ top.score := by
  obtain ⟨hscore, hothers⟩ := hleads
  obtain ⟨candidate, hcandidate, hcandidateScore⟩ := exists_candidate hproject
    (Nat.lt_of_lt_of_le (by decide) hscore)
  have hpair := registry.pairwise_candidates routingState request
  cases hcandidates : registry.candidates routingState request with
  | nil => rw [hcandidates] at hcandidate; cases hcandidate
  | cons top rest =>
    rw [hcandidates] at hcandidate hpair
    obtain ⟨hfirst, -⟩ := List.pairwise_cons.mp hpair
    obtain ⟨leader, hleader, hleaderScore⟩ := mem_candidates_iff.mp
      (hcandidates ▸ List.mem_cons_self : top ∈ registry.candidates routingState request)
    -- The first one is the project's own: any other would have fewer points than it.
    have heq : leader = project := by
      by_contra hne
      have hless := hothers leader hleader hne
      rcases List.mem_cons.mp hcandidate with rfl | hrest
      · exact hne (eq_of_projectId hleader hproject
          ((of_scoreProject hleaderScore).1.symm.trans (of_scoreProject hcandidateScore).1))
      · have hle := score_le_of_better (hfirst candidate hrest).1
        rw [(of_scoreProject hcandidateScore).2, (of_scoreProject hleaderScore).2] at hle
        omega
    subst heq
    refine ⟨top, rest, rfl, hleaderScore, fun second hsecond => ?_⟩
    obtain ⟨other, hother, hotherScore⟩ := mem_candidates_iff.mp
      (hcandidates ▸ List.mem_cons_of_mem _ hsecond :
        second ∈ registry.candidates routingState request)
    have hne : other ≠ leader := fun heq => (hfirst second hsecond).2 <| by
      rw [(of_scoreProject hleaderScore).1, (of_scoreProject hotherScore).1, heq]
    have hless := hothers other hother hne
    rwa [(of_scoreProject hotherScore).2, (of_scoreProject hleaderScore).2]

/-- The other way round: what comes first with no other near leads, if its score is high
enough. -/
theorem leads_of_candidates {top : ProjectRoutingCandidate}
    {rest : List ProjectRoutingCandidate} (hproject : project ∈ registry.active)
    (hcandidates : registry.candidates routingState request = top :: rest)
    (htop : scoreProject routingState request project = some top)
    (hrest : ∀ second ∈ rest, second.score + 11 ≤ top.score) (hscore : 80 ≤ top.score) :
    registry.Leads routingState request project := by
  rw [(of_scoreProject htop).2] at hscore hrest
  refine ⟨hscore, fun other hother hne => ?_⟩
  rcases Nat.eq_zero_or_pos (score other routingState request) with hzero | hpos
  · omega
  · obtain ⟨candidate, hcandidate, hcandidateScore⟩ := exists_candidate hother hpos
    rw [hcandidates] at hcandidate
    rcases List.mem_cons.mp hcandidate with rfl | hmem
    · exact absurd (eq_of_projectId hother hproject
        ((of_scoreProject hcandidateScore).1.symm.trans (of_scoreProject htop).1)) hne
    · rw [← (of_scoreProject hcandidateScore).2]
      exact hrest candidate hmem

end LoadedRegistry

/-! ### Decisions without a question -/

/-- The answer from candidates in order, when it does not ask. -/
theorem decideAmong_unasked_iff {top : ProjectRoutingCandidate}
    {rest : List ProjectRoutingCandidate} {controlAction : Bool} {id : String}
    (hsorted : (top :: rest).Pairwise Better) :
    ((decideAmong (top :: rest) controlAction).requiresConfirmation = false ∧
      (decideAmong (top :: rest) controlAction).selectedProjectId = some id) ↔
      (∀ second ∈ rest, second.score + 11 ≤ top.score) ∧
        autoRouteAllowed top controlAction = true ∧ top.projectId = id := by
  have hclear : (rest.head?.any fun second => decide (top.score ≤ second.score + 10)) = false ↔
      ∀ second ∈ rest, second.score + 11 ≤ top.score := by
    cases rest with
    | nil => simp
    | cons second rest =>
      have hbetter := (List.pairwise_cons.mp (List.pairwise_cons.mp hsorted).2).1
      simp only [List.head?_cons, Option.any_some, decide_eq_false_iff_not, Nat.not_le,
        List.forall_mem_cons]
      refine ⟨fun h => ⟨h, fun third hthird => ?_⟩, fun h => h.1⟩
      have hle := score_le_of_better (hbetter third hthird)
      omega
  rw [← hclear]
  cases hambiguous : rest.head?.any fun second => decide (top.score ≤ second.score + 10) <;>
    simp [decideAmong, hambiguous]

/-- The project is the only one, and the message has no control verb; or it leads, with 98 points
if the message has one. -/
def LoadedRegistry.Takes (registry : LoadedRegistry) (routingState : ProjectRoutingState)
    (request : ProjectRoutingRequest) (project : RegisteredProject) : Prop :=
  (registry.active = [project] ∧ looksLikeControlAction request = false) ∨
    (1 < registry.active.length ∧ registry.Leads routingState request project ∧
      (looksLikeControlAction request = true → 98 ≤ score project routingState request))

/-- **What is taken without asking.** -/
theorem resolves_unasked_iff {registry : LoadedRegistry}
    {loaded : Except String ProjectRoutingState} {decision : ProjectRoutingDecision}
    (h : resolveProjectForMessageAt (.ok registry) loaded request = .ok decision) (id : String) :
    (decision.requiresConfirmation = false ∧ decision.selectedProjectId = some id) ↔
      ∃ project ∈ registry.active, project.projectId = id ∧
        registry.Takes (loaded.toOption.getD {}) request project := by
  unfold LoadedRegistry.Takes
  obtain ⟨_, ⟨⟩, h⟩ := Config.bind_eq_ok.mp h
  generalize hstate : loaded.toOption.getD {} = routingState at h ⊢
  dsimp only at h
  split at h
  · next hactive =>
    cases h
    simp [hactive]
  · next only hactive =>
    cases h
    simp [hactive, onlyProject, and_comm]
  · next hnone hone =>
    cases h
    have hmany : 1 < registry.active.length := by
      match hactive : registry.active with
      | [] => exact absurd hactive hnone
      | [only] => exact absurd hactive (hone only)
      | _ :: _ :: _ => simp
    have hnotOnly : ∀ project, registry.active ≠ [project] := hone
    have hsorted := (registry.pairwise_candidates routingState request).imp And.left
    constructor
    · intro hunasked
      cases hcandidates : registry.candidates routingState request with
      | nil => rw [hcandidates] at hunasked; cases hunasked.1
      | cons top rest =>
        rw [hcandidates] at hunasked hsorted
        obtain ⟨hrest, hallowed, rfl⟩ := (decideAmong_unasked_iff hsorted).mp hunasked
        obtain ⟨project, hproject, htop⟩ := LoadedRegistry.mem_candidates_iff.mp
          (hcandidates ▸ List.mem_cons_self : top ∈ registry.candidates routingState request)
        rw [autoRouteAllowed_iff htop] at hallowed
        -- Either bound is at least 80, which is what it takes to lead.
        have hscore : 80 ≤ top.score := by split at hallowed <;> omega
        refine ⟨project, hproject, (of_scoreProject htop).1.symm, .inr ⟨hmany,
          LoadedRegistry.leads_of_candidates hproject hcandidates htop hrest hscore, ?_⟩⟩
        intro hcontrol
        rwa [if_pos hcontrol, (of_scoreProject htop).2] at hallowed
    · rintro ⟨project, hproject, rfl, ⟨honly, -⟩ | ⟨-, hleads, hcontrol⟩⟩
      · exact absurd honly (hnotOnly project)
      · obtain ⟨top, rest, hcandidates, htop, hrest⟩ :=
          LoadedRegistry.candidates_of_leads hproject hleads
        rw [hcandidates] at hsorted ⊢
        refine (decideAmong_unasked_iff hsorted).mpr ⟨hrest, ?_, (of_scoreProject htop).1⟩
        rw [autoRouteAllowed_iff htop, (of_scoreProject htop).2]
        split
        · exact hcontrol ‹_›
        · exact hleads.1

/-! ### The promise -/

/-- The message names the project by its id or by an alias. -/
def IsNamed (project : RegisteredProject) (request : ProjectRoutingRequest) : Prop :=
  Mentions request.lower project.projectId.toList ∨
    ∃ label ∈ project.aliases, Mentions request.lower label.toList

/-- The message names the project or comes from a thread bound to it. -/
def Identified (project : RegisteredProject) (request : ProjectRoutingRequest) : Prop :=
  IsNamed project request ∨ (threadBindingMatch project request).isSome

def NamesVerb (request : ProjectRoutingRequest) : Prop :=
  ∃ verb ∈ controlVerbs, Mentions request.lower verb.toList

/-- What is promised of a decision. -/
structure RoutesSafely (registry : LoadedRegistry) (routingState : ProjectRoutingState)
    (request : ProjectRoutingRequest) (decision : ProjectRoutingDecision) : Prop where
  /-- What is selected without a question is a registered project that is not archived, leads by
  11 points, and is identified if the message names a control verb. -/
  unasked : decision.requiresConfirmation = false → ∀ id, decision.selectedProjectId = some id →
    ∃ project ∈ registry.projects, project.projectId = id ∧
      project.policyFlags.archived = false ∧
      (∀ other ∈ registry.projects, other.policyFlags.archived = false → other ≠ project →
        score other routingState request + 11 ≤ score project routingState request) ∧
      (NamesVerb request → Identified project request)
  /-- What the message names is a candidate with 98 points. -/
  named : ∀ project ∈ registry.projects, project.policyFlags.archived = false →
    IsNamed project request → ∃ candidate ∈ decision.candidates,
      candidate.projectId = project.projectId ∧ 98 ≤ candidate.score

/-- No decision rests on a verb or a label that the message names only as a part of a token, with
the punctuation next to it. -/
structure ReadsWordsWhole (registry : LoadedRegistry) (routingState : ProjectRoutingState)
    (request : ProjectRoutingRequest) : Prop where
  /-- If a verb is named, then one is a word of the message; or no project that is the only one or
  leads goes unidentified. -/
  verbs : NamesVerb request → looksLikeControlAction request = true ∨
    ∀ project ∈ registry.active,
      registry.active = [project] ∨ registry.Leads routingState request project →
        Identified project request
  /-- If there are several projects, one that is named has its id or an alias among the words of
  the message, or its thread binding matches. -/
  labels : 1 < registry.active.length → ∀ project ∈ registry.active, IsNamed project request →
    mentionsProjectId project request = true ∨ mentionsAlias project request = true ∨
      (threadBindingMatch project request).isSome

theorem LoadedRegistry.mem_active_iff {registry : LoadedRegistry} :
    project ∈ registry.active ↔
      project ∈ registry.projects ∧ project.policyFlags.archived = false := by
  simp [active]

/-- A project with 98 points is identified: its labels are words of the message. -/
theorem identified_of_score (h : 98 ≤ score project routingState request) :
    Identified project request := by
  rcases ninetyEight_le_score_iff.mp h with h | h | h
  · exact .inl (.inl (mentions_of_mem_tokens (by simpa [mentionsProjectId] using h)))
  · obtain ⟨label, hlabel, htoken⟩ := List.any_eq_true.mp h
    exact .inl (.inr ⟨label, hlabel, mentions_of_mem_tokens (by simpa using htoken)⟩)
  · exact .inr h

@[simp] theorem candidates_decideAmong (candidates : List ProjectRoutingCandidate)
    (controlAction : Bool) : (decideAmong candidates controlAction).candidates = candidates := by
  cases candidates <;> rfl

/-- The candidates of a decision: all that score, if there are several projects, and else the one
there is, with 100 points. -/
theorem candidates_of_resolves {registry : LoadedRegistry}
    {loaded : Except String ProjectRoutingState} {decision : ProjectRoutingDecision}
    (h : resolveProjectForMessageAt (.ok registry) loaded request = .ok decision) :
    (1 < registry.active.length ∧
      decision.candidates = registry.candidates (loaded.toOption.getD {}) request) ∨
    (registry.active.length ≤ 1 ∧ ∀ project ∈ registry.active, ∃ candidate ∈ decision.candidates,
      candidate.projectId = project.projectId ∧ 98 ≤ candidate.score) := by
  obtain ⟨_, ⟨⟩, h⟩ := Config.bind_eq_ok.mp h
  dsimp only at h
  split at h
  · next hactive =>
    cases h
    exact .inr (by simp [hactive])
  · next only hactive =>
    cases h
    exact .inr (by simp [hactive, onlyProject])
  · next hnone hone =>
    cases h
    refine .inl ⟨?_, candidates_decideAmong _ _⟩
    match hactive : registry.active with
    | [] => exact absurd hactive hnone
    | [only] => exact absurd hactive (hone only)
    | _ :: _ :: _ => simp

theorem resolves (registry : LoadedRegistry) (loaded : Except String ProjectRoutingState)
    (request : ProjectRoutingRequest) :
    ∃ decision, resolveProjectForMessageAt (.ok registry) loaded request = .ok decision := by
  simp only [resolveProjectForMessageAt, bind, Except.bind]
  split
  · exact ⟨_, rfl⟩
  · exact ⟨_, rfl⟩
  · exact ⟨_, rfl⟩

namespace LoadedRegistry

variable {registry : LoadedRegistry}

theorem eq_singleton_of_mem (hproject : project ∈ registry.active)
    (h : registry.active.length = 1) : registry.active = [project] := by
  obtain ⟨only, hactive⟩ := List.length_eq_one_iff.mp h
  rw [hactive, List.mem_singleton] at hproject
  rw [hactive, hproject]

theorem takes_of_first (hproject : project ∈ registry.active)
    (hcontrol : looksLikeControlAction request = false)
    (hfirst : registry.active = [project] ∨ registry.Leads routingState request project) :
    registry.Takes routingState request project := by
  by_cases honly : registry.active = [project]
  · exact .inl ⟨honly, hcontrol⟩
  · have hlength : registry.active.length ≠ 1 := fun h => honly (eq_singleton_of_mem hproject h)
    have hpos := List.length_pos_of_mem hproject
    exact .inr ⟨by omega, hfirst.resolve_left honly, by simp [hcontrol]⟩

theorem Takes.first (h : registry.Takes routingState request project) :
    registry.active = [project] ∨ registry.Leads routingState request project :=
  h.imp And.left fun h => h.2.1

/-- No other project comes near the one that is taken. -/
theorem Takes.apart (h : registry.Takes routingState request project) {other : RegisteredProject}
    (hother : other ∈ registry.active) (hne : other ≠ project) :
    score other routingState request + 11 ≤ score project routingState request := by
  rcases h.first with honly | hleads
  · rw [honly, List.mem_singleton] at hother
    exact absurd hother hne
  · exact hleads.2 other hother hne

/-- What is taken in spite of a control verb is identified. -/
theorem Takes.identified (h : registry.Takes routingState request project)
    (hcontrol : looksLikeControlAction request = true) : Identified project request := by
  rcases h with ⟨-, hnot⟩ | ⟨-, -, hscore⟩
  · rw [hcontrol] at hnot
    cases hnot
  · exact identified_of_score (hscore hcontrol)

/-- A project is a candidate with 98 points if it is the only one, or is found in the message. -/
theorem exists_candidate_iff {loaded : Except String ProjectRoutingState}
    {decision : ProjectRoutingDecision}
    (h : resolveProjectForMessageAt (.ok registry) loaded request = .ok decision)
    (hproject : project ∈ registry.active) :
    (∃ candidate ∈ decision.candidates,
        candidate.projectId = project.projectId ∧ 98 ≤ candidate.score) ↔
      (1 < registry.active.length →
        mentionsProjectId project request = true ∨ mentionsAlias project request = true ∨
          (threadBindingMatch project request).isSome) := by
  rcases candidates_of_resolves h with ⟨hmany, hall⟩ | ⟨hfew, hsingle⟩
  · have hfound : 98 ≤ score project (loaded.toOption.getD {}) request ↔
        mentionsProjectId project request = true ∨ mentionsAlias project request = true ∨
          (threadBindingMatch project request).isSome := ninetyEight_le_score_iff
    rw [hall, ← hfound]
    constructor
    · rintro ⟨candidate, hcandidate, hid, hscore⟩ -
      obtain ⟨other, hother, hotherScore⟩ := mem_candidates_iff.mp hcandidate
      obtain rfl := eq_of_projectId hother hproject
        ((of_scoreProject hotherScore).1.symm.trans hid)
      rwa [(of_scoreProject hotherScore).2] at hscore
    · intro hscored
      have hscore := hscored hmany
      obtain ⟨candidate, hcandidate, hcandidateScore⟩ :=
        exists_candidate hproject (Nat.lt_of_lt_of_le (by decide) hscore)
      refine ⟨candidate, hcandidate, (of_scoreProject hcandidateScore).1, ?_⟩
      rwa [(of_scoreProject hcandidateScore).2]
  · exact iff_of_true (hsingle project hproject) fun hmany => by omega

end LoadedRegistry

/-- **Routing keeps its promise exactly for the requests whose words decide as they stand.** -/
theorem routesSafely_iff (registry : LoadedRegistry) (loaded : Except String ProjectRoutingState)
    (request : ProjectRoutingRequest) :
    (∃ decision, resolveProjectForMessageAt (.ok registry) loaded request = .ok decision ∧
      RoutesSafely registry (loaded.toOption.getD {}) request decision) ↔
      ReadsWordsWhole registry (loaded.toOption.getD {}) request := by
  obtain ⟨decision, hdecision⟩ := resolves registry loaded request
  have hunasked := resolves_unasked_iff hdecision
  have hnamed {project : RegisteredProject} (hproject : project ∈ registry.active) :=
    LoadedRegistry.exists_candidate_iff hdecision hproject
  generalize loaded.toOption.getD {} = routingState at hunasked ⊢
  have hmem {project : RegisteredProject} (hproject : project ∈ registry.projects)
      (hactive : project.policyFlags.archived = false) : project ∈ registry.active :=
    LoadedRegistry.mem_active_iff.mpr ⟨hproject, hactive⟩
  constructor
  · rintro ⟨_, hsame, hsafe⟩
    obtain rfl : decision = _ := Except.ok.inj (hdecision.symm.trans hsame)
    refine ⟨fun hverb => ?_, fun hmany project hproject hmentioned => ?_⟩
    · cases hcontrol : looksLikeControlAction request with
      | true => exact .inl rfl
      | false =>
        -- Without a verb among the words, the first project is taken, and so identified.
        refine .inr fun project hproject hfirst => ?_
        have htaken := (hunasked project.projectId).mpr
          ⟨project, hproject, rfl, LoadedRegistry.takes_of_first hproject hcontrol hfirst⟩
        obtain ⟨taken, htakenMem, hid, hactive, -, hidentified⟩ :=
          hsafe.unasked htaken.1 project.projectId htaken.2
        obtain rfl := LoadedRegistry.eq_of_projectId (hmem htakenMem hactive) hproject hid
        exact hidentified hverb
    · obtain ⟨hregistered, hactive⟩ := LoadedRegistry.mem_active_iff.mp hproject
      exact (hnamed hproject).mp (hsafe.named project hregistered hactive hmentioned) hmany
  · intro hwhole
    refine ⟨decision, hdecision, fun hask id hselected => ?_,
      fun project hproject hactive hmentioned => ?_⟩
    · obtain ⟨project, hproject, hid, htaken⟩ := (hunasked id).mp ⟨hask, hselected⟩
      obtain ⟨hregistered, hactive⟩ := LoadedRegistry.mem_active_iff.mp hproject
      refine ⟨project, hregistered, hid, hactive, fun other hother hotherActive hne =>
        htaken.apart (hmem hother hotherActive) hne, fun hverb => ?_⟩
      rcases hwhole.verbs hverb with hcontrol | hall
      · exact htaken.identified hcontrol
      · exact hall project hproject htaken.first
    · have hmemActive := hmem hproject hactive
      exact (hnamed hmemActive).mpr fun hmany => hwhole.labels hmany project hmemActive hmentioned

/-! ### The end of a sentence -/

def sampleProject : RegisteredProject :=
  { projectId := "alpha"
    name := "Alpha"
    aliases := ["batty"]
    projectRoot := ⟨true, ["srv", "alpha"]⟩
    boardDir := ⟨true, ["srv", "alpha", "board"]⟩
    teamName := "alpha-team"
    sessionName := "alpha-session"
    channelBindings := []
    tags := []
    policyFlags := {} }

def sampleRegistry : LoadedRegistry :=
  { kind := registryKind
    schemaVersion := registrySchemaVersion
    projects := [sampleProject]
    valid := by decide }

/-- A sentence with a control verb at its end, and no project in it. -/
def sampleRequest : ProjectRoutingRequest := ⟨"Please stop.", none, none, none⟩

theorem not_identified_sample : ¬ Identified sampleProject sampleRequest := by
  rintro ((h | ⟨label, hlabel, h⟩) | h)
  · exact absurd h.infix (by decide)
  · obtain rfl := List.mem_singleton.mp hlabel
    exact absurd h.infix (by decide)
  · exact absurd h (by decide)

/-- **A message that says “stop.” is acted on without a question.** -/
theorem not_routesSafely_fullStop :
    ¬ ∃ decision, resolveProjectForMessageAt (.ok sampleRegistry) (.ok {}) sampleRequest =
      .ok decision ∧ RoutesSafely sampleRegistry {} sampleRequest decision := by
  rintro ⟨decision, hdecision, hsafe⟩
  have hanswer : decision = onlyProject sampleProject false :=
    (Except.ok.inj (hdecision.symm.trans (by decide)))
  subst hanswer
  obtain ⟨project, hproject, -, -, -, hidentified⟩ := hsafe.unasked rfl "alpha" rfl
  obtain rfl := List.mem_singleton.mp hproject
  have hverb : NamesVerb sampleRequest :=
    ⟨"stop", by decide, "please ".toList, ['.'], by decide, by decide, by decide⟩
  exact not_identified_sample (hidentified hverb)

end Projects

end Batty
