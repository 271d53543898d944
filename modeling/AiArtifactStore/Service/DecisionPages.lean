import AiArtifactStore.Foundation.Decimal
import AiArtifactStore.Foundation.FullPages
import AiArtifactStore.Foundation.JsonCode
import AiArtifactStore.Metadata.LifecycleDecisions
import AiArtifactStore.Metadata.RunIdentity
import AiArtifactStore.Metadata.RunSnapshots
import AiArtifactStore.Service.LifecycleCommands
import AiArtifactStore.Service.Routing

/-!
# Pages of lifecycle decisions

The client library writes a cursor and a limit into a target, the service reads them, and the
database compares with the cursor.  `lifecycle explain` finds every decision of a run once.
-/

namespace AiArtifactStore.Service

open AiArtifactStore.Foundation
open AiArtifactStore.Identity
open AiArtifactStore.Metadata

/-! ## Texts in a target -/

/-- The text holds none of the characters that separate the parts of a target. -/
def Plain (text : List Char) : Prop := ∀ c ∈ text, c ∉ ['/', '?', '#', '&', '=']

theorem Plain.append {front back : List Char} (hfront : Plain front) (hback : Plain back) :
    Plain (front ++ back) :=
  fun c hc => (List.mem_append.mp hc).elim (hfront c) (hback c)

theorem Plain.notMem {text : List Char} (h : Plain text) {c : Char}
    (hc : c ∈ ['/', '?', '#', '&', '=']) : c ∉ text := fun hmem => h c hmem hc

theorem plain_hexDigits (width n : Nat) : Plain (hexDigits width n) := by
  have hall : ∀ d : Fin 16, Nat.digitChar d ∉ ['/', '?', '#', '&', '='] := by decide
  induction width generalizing n with
  | zero => exact fun c hc => absurd hc List.not_mem_nil
  | succ width ih =>
      refine (ih (n / 16)).append fun c hc => ?_
      obtain rfl := List.mem_singleton.mp hc
      exact hall ⟨n % 16, Nat.mod_lt _ (by decide)⟩

theorem mem_hyphenate {digits : List Char} {c : Char} (h : c ∈ UuidV7.hyphenate digits) :
    c = '-' ∨ c ∈ digits := by
  simp only [UuidV7.hyphenate, List.mem_append, List.mem_cons] at h
  rcases h with h | rfl | h | rfl | h | rfl | h | rfl | h
  · exact .inr (List.mem_of_mem_take h)
  · exact .inl rfl
  · exact .inr (List.mem_of_mem_drop (List.mem_of_mem_take h))
  · exact .inl rfl
  · exact .inr (List.mem_of_mem_drop (List.mem_of_mem_take h))
  · exact .inl rfl
  · exact .inr (List.mem_of_mem_drop (List.mem_of_mem_take h))
  · exact .inl rfl
  · exact .inr (List.mem_of_mem_drop h)

theorem plain_str (id : UuidV7) : Plain id.str.toList := by
  intro c hc
  rw [UuidV7.str, String.toList_ofList] at hc
  rcases mem_hyphenate hc with rfl | hc
  · decide
  · exact plain_hexDigits 32 _ c hc

theorem isDigit_of_toDigits {n : Nat} {c : Char} (h : c ∈ Nat.toDigits 10 n) :
    c.isDigit = true :=
  Nat.isDigit_of_mem_toDigits (Nat.succ_pos 9) (Nat.le_refl 10) h

theorem plain_toDigits (n : Nat) : Plain (Nat.toDigits 10 n) := by
  intro c hc hmem
  have hdigit := isDigit_of_toDigits hc
  simp only [List.mem_cons, List.not_mem_nil, or_false] at hmem
  rcases hmem with rfl | rfl | rfl | rfl | rfl <;> exact absurd hdigit (by decide)

/-! ## The query string -/

theorem parsePositiveSize_eq_some {text : List Char} {n : Nat} :
    parsePositiveSize text = some n ↔ decimal? text = some n ∧ n < 2 ^ 64 := by
  rw [parsePositiveSize]
  split
  case isTrue hempty => simp [hempty, decimal?]
  case isFalse hne =>
    have hadds := @addsDigit_of_division (2 ^ 64 - 1) (by decide) _ fun value c => rfl
    rw [hadds.foldlM_eq_decimal? hne]
    exact and_congr_right fun _ => by omega

theorem decimal?_toDigits (n : Nat) : decimal? (Nat.toDigits 10 n) = some n := by
  have hdigits := List.all_eq_true.mpr fun c hc => isDigit_of_toDigits (n := n) hc
  rw [decimal?, if_pos ⟨Nat.toDigits_ne_nil, hdigits⟩, Nat.ofDigitChars_ten_toDigits]

section

variable {parsed : LifecycleDecisionQuery} {limit : Nat}

theorem dropInfix?_pair {key value : List Char} (h : '=' ∉ key) :
    (key ++ '=' :: value).dropInfix? ['='] = some (key, value) := by
  have hfirst := @dropInfix?_append _ _ _ '=' [] key value h
  rwa [List.append_assoc, List.singleton_append] at hfirst

theorem addDecisionParam_limit (hlimit : 1 ≤ limit) (hmax : limit ≤ 256) :
    addDecisionParam parsed ("limit=".toList ++ Nat.toDigits 10 limit) =
      .ok { parsed with limit := limit } := by
  have hkey : "limit=".toList = "limit".toList ++ ['='] := by decide
  have hsize : parsePositiveSize (Nat.toDigits 10 limit) = some limit :=
    parsePositiveSize_eq_some.mpr ⟨decimal?_toDigits limit, by omega⟩
  have hrange : ¬(limit < 1 ∨ limit > kMaxLifecycleDecisionPageLimit) := by
    rw [kMaxLifecycleDecisionPageLimit]
    omega
  rw [addDecisionParam, hkey, List.append_assoc, List.singleton_append,
    dropInfix?_pair (by decide)]
  simp only [orFail_some, ok_bind]
  rw [if_neg (by decide), if_pos trivial, hsize, orFail_some, ok_bind, failIf_of_false hrange]
  rfl

theorem addDecisionParam_after (h : parsed.after = none) (versionId : ContentId) :
    addDecisionParam parsed ("after=".toList ++ versionId.hexCharacters) =
      .ok { parsed with after := some versionId } := by
  have hkey : "after=".toList = "after".toList ++ ['='] := by decide
  have hnone : ¬parsed.after.isSome = true := by simp [h]
  rw [addDecisionParam, hkey, List.append_assoc, List.singleton_append,
    dropInfix?_pair (by decide)]
  simp only [orFail_some, ok_bind]
  rw [if_pos trivial, failIf_of_false hnone, ok_bind, ← ContentId.hex, ContentId.ofHex?_hex,
    orFail_some]
  rfl

theorem queryPairs_intercalate {pairs : List (List Char)} (hne : pairs ≠ [])
    (hplain : ∀ pair ∈ pairs, '&' ∉ pair) (hlast : pairs.getLast? ≠ some []) :
    queryPairs (['&'].intercalate pairs) = pairs := by
  simp only [queryPairs, List.splitOn_intercalate '&' hplain hne, if_neg hlast]

def pagePairs (after : Option ContentId) (limit : Nat) : List (List Char) :=
  ("limit=".toList ++ Nat.toDigits 10 limit) ::
    after.toList.map fun versionId => "after=".toList ++ versionId.hexCharacters

def pageQuery (after : Option ContentId) (limit : Nat) : List Char :=
  ['&'].intercalate (pagePairs after limit)

theorem separator_notMem_limit (limit : Nat) : '&' ∉ "limit=".toList ++ Nat.toDigits 10 limit :=
  List.not_mem_append (by decide) ((plain_toDigits limit).notMem (by decide))

theorem separator_notMem_after (versionId : ContentId) :
    '&' ∉ "after=".toList ++ versionId.hexCharacters :=
  List.not_mem_append (by decide) ((plain_hexDigits 64 _).notMem (by decide))

theorem pagePairs_ne_nil {after : Option ContentId} {pair : List Char}
    (h : pair ∈ pagePairs after limit) : pair ≠ [] := by
  rcases List.mem_cons.mp h with rfl | h
  · exact List.append_ne_nil_of_left_ne_nil (by decide) _
  · obtain ⟨versionId, -, rfl⟩ := List.mem_map.mp h
    exact List.append_ne_nil_of_left_ne_nil (by decide) _

theorem queryPairs_pageQuery (after : Option ContentId) (limit : Nat) :
    queryPairs (pageQuery after limit) = pagePairs after limit := by
  refine queryPairs_intercalate (List.cons_ne_nil _ _) (fun pair hpair => ?_) fun hlast =>
    pagePairs_ne_nil (List.mem_of_getLast? hlast) rfl
  rcases List.mem_cons.mp hpair with rfl | hpair
  · exact separator_notMem_limit limit
  · obtain ⟨versionId, -, rfl⟩ := List.mem_map.mp hpair
    exact separator_notMem_after versionId

theorem parseLifecycleDecisionsQuery_pageQuery (hlimit : 1 ≤ limit) (hmax : limit ≤ 256)
    (after : Option ContentId) :
    parseLifecycleDecisionsQuery (pageQuery after limit) = .ok ⟨after, limit⟩ := by
  rw [parseLifecycleDecisionsQuery, queryPairs_pageQuery, pagePairs, foldEach,
    addDecisionParam_limit hlimit hmax]
  cases after with
  | none => rfl
  | some versionId =>
      simp only [Option.toList_some, List.map_cons, List.map_nil, foldEach]
      rw [addDecisionParam_after rfl]

end

/-! ## The target -/

section

variable {request : Request} {path rest : List Char}

theorem target_split (hquery : '?' ∉ path) (hfragment : '#' ∉ path)
    (h : request.target = path ++ '?' :: rest) :
    request.path = path ∧ request.suffix = '?' :: rest := by
  have hall : ∀ c ∈ path, decide (c ≠ '?' ∧ c ≠ '#') = true := fun c hc =>
    decide_eq_true ⟨fun heq => hquery (heq ▸ hc), fun heq => hfragment (heq ▸ hc)⟩
  rw [Request.path, Request.suffix, h, List.takeWhile_append_of_pos hall,
    List.dropWhile_append_of_pos hall, List.takeWhile_cons_of_neg (by decide),
    List.dropWhile_cons_of_neg (by decide), List.append_nil]
  exact ⟨rfl, rfl⟩

theorem query_of_suffix (h : request.suffix = '?' :: rest) (hrest : '#' ∉ rest) :
    request.query = rest ∧ ¬request.hasFragment := by
  have hall : ∀ c ∈ rest, decide (c ≠ '#') = true := fun c hc =>
    decide_eq_true fun heq => hrest (heq ▸ hc)
  rw [Request.query, Request.hasFragment, h]
  refine ⟨?_, by simp⟩
  rw [List.head?_cons, if_pos rfl, List.tail_cons, List.takeWhile_eq_self_iff.mpr hall]

theorem pageQuery_eq (after : Option ContentId) (limit : Nat) :
    pageQuery after limit = "limit=".toList ++ Nat.toDigits 10 limit ++
      match after with
      | none => []
      | some versionId => "&after=".toList ++ versionId.hexCharacters := by
  have hafter : "&after=".toList = '&' :: "after=".toList := by decide
  have hone : ∀ pair : List Char, ['&'].intercalate [pair] = pair := fun pair => by
    simp [List.intercalate]
  have htwo : ∀ first last : List Char, ['&'].intercalate [first, last] = first ++ '&' :: last :=
    fun first last => by simp [List.intercalate]
  cases after with
  | none => exact (hone _).trans (List.append_nil _).symm
  | some versionId =>
      rw [hafter]
      exact htwo _ _

theorem decisionsRequest_target (runId : UuidV7) (after : Option ContentId) (limit : Nat) :
    (decisionsRequest runId after limit).target =
      (kLifecycleRunsPrefix ++ runId.str.toList ++ "/decisions".toList) ++
        '?' :: pageQuery after limit := by
  have hsplit : "/decisions?limit=".toList = "/decisions".toList ++ '?' :: "limit=".toList := by
    decide
  have happend : ∀ {middle front back : List Char}, middle = front ++ '?' :: back →
      ∀ a b c d : List Char,
        a ++ b ++ middle ++ c ++ d = a ++ b ++ front ++ '?' :: (back ++ c ++ d) := by
    rintro _ front back rfl a b c d
    simp only [List.append_assoc, List.cons_append]
  rw [pageQuery_eq]
  cases after with
  | none => exact happend hsplit kLifecycleRunsPrefix runId.str.toList (Nat.toDigits 10 limit) []
  | some versionId =>
      exact happend hsplit kLifecycleRunsPrefix runId.str.toList (Nat.toDigits 10 limit)
        ("&after=".toList ++ versionId.hexCharacters)

theorem hash_notMem_pageQuery (after : Option ContentId) (limit : Nat) :
    '#' ∉ pageQuery after limit := by
  have hdigits : '#' ∉ Nat.toDigits 10 limit := (plain_toDigits limit).notMem (by decide)
  have hlimit : '#' ∉ "limit=".toList ++ Nat.toDigits 10 limit :=
    List.not_mem_append (by decide) hdigits
  rw [pageQuery_eq]
  cases after with
  | none => rwa [List.append_nil]
  | some versionId =>
      have hhex : '#' ∉ versionId.hexCharacters := (plain_hexDigits 64 _).notMem (by decide)
      exact List.not_mem_append hlimit (List.not_mem_append (by decide) hhex)

theorem isUuid_str (id : UuidV7) : isUuid id.str = true := by
  rw [isUuid, UuidV7.parse_str]
  rfl

theorem route_decisionsRequest (runId : UuidV7) (after : Option ContentId) (limit : Nat) :
    route (decisionsRequest runId after limit) =
      .ok (.listLifecycleDecisions runId.str (pageQuery after limit)) := by
  have hquestion : '?' ∉ kLifecycleRunsPrefix ++ runId.str.toList ++ "/decisions".toList :=
    List.not_mem_append (List.not_mem_append (by decide) ((plain_str runId).notMem (by decide)))
      (by decide)
  have hhash : '#' ∉ kLifecycleRunsPrefix ++ runId.str.toList ++ "/decisions".toList :=
    List.not_mem_append (List.not_mem_append (by decide) ((plain_str runId).notMem (by decide)))
      (by decide)
  obtain ⟨hpath, hsuffix⟩ :=
    target_split hquestion hhash (decisionsRequest_target runId after limit)
  obtain ⟨hquery, hfragment⟩ := query_of_suffix hsuffix (hash_notMem_pageQuery after limit)
  exact route_eq_ok_iff.mpr ⟨.inl rfl, ⟨⟨hpath, (plain_str runId).notMem (by decide)⟩, hfragment,
    hquery.symm⟩, .inl (isUuid_str runId)⟩

end

/-! ## The page of a request -/

/-- The database puts one version id before another. -/
def idBefore (env : Environment) (a b : ContentId) : Bool := !env.textLe b.hex a.hex

def orderedDecisions (env : Environment) (row : LifecycleRunRow) : List LifecycleDecision :=
  env.orderByText (fun d => d.versionId.hex) row.decisions

section

variable {env : Environment} {json : JsonLibrary (List UInt8)} {clock : Clock} {db : Db}
  {row : LifecycleRunRow} {limit : Nat}

theorem idBefore_asymm (hlinear : LinearText env) (a b : ContentId) (h : idBefore env a b = true) :
    idBefore env b a = false := by
  rw [idBefore, Bool.not_eq_true'] at h
  have hle := (hlinear.total a.hex b.hex).resolve_right (by simp [h])
  rw [idBefore, hle]
  rfl

theorem eq_of_versionId (hnodup : (row.decisions.map LifecycleDecision.versionId).Nodup)
    {a b : LifecycleDecision} (ha : a ∈ row.decisions) (hb : b ∈ row.decisions)
    (h : a.versionId = b.versionId) : a = b := List.inj_on_of_nodup_map hnodup ha hb h

theorem orderedDecisions_perm (env : Environment) (row : LifecycleRunRow) :
    (orderedDecisions env row).Perm row.decisions := List.perm_insertionSort _ _

theorem orderedDecisions_pairwise (hlinear : LinearText env)
    (hnodup : (row.decisions.map LifecycleDecision.versionId).Nodup) :
    (orderedDecisions env row).Pairwise fun a b => idBefore env a.versionId b.versionId = true := by
  have : Std.Total fun a b : LifecycleDecision =>
      env.textLe a.versionId.hex b.versionId.hex = true := ⟨fun a b => hlinear.total _ _⟩
  have : IsTrans LifecycleDecision fun a b =>
      env.textLe a.versionId.hex b.versionId.hex = true := ⟨fun a b c => hlinear.trans _ _ _⟩
  have hsorted : (orderedDecisions env row).Pairwise fun a b =>
      env.textLe a.versionId.hex b.versionId.hex = true := List.pairwise_insertionSort _ _
  have hdistinct : (orderedDecisions env row).Pairwise fun a b => a.versionId ≠ b.versionId := by
    have hkeys := ((orderedDecisions_perm env row).map LifecycleDecision.versionId).nodup_iff.mpr
      hnodup
    exact List.pairwise_map.mp hkeys
  refine (hsorted.and hdistinct).imp fun {a b} h => ?_
  rw [idBefore, Bool.not_eq_true']
  refine eq_false_of_ne_true fun hle => h.2 ?_
  exact ContentId.hex_injective (hlinear.antisymm _ _ h.1 hle)

theorem listLifecycleDecisions_eq (hlinear : LinearText env)
    (hrow : db.lifecycleRuns.find? row.run.runId = some row)
    (hnodup : (row.decisions.map LifecycleDecision.versionId).Nodup) (hlimit : 1 ≤ limit)
    (hmax : limit ≤ 256) (after : Option ContentId) :
    listLifecycleDecisions env db row.run.runId ⟨after, limit⟩ =
      .ok (FullPages.pageAfter (idBefore env) LifecycleDecision.versionId limit
        (orderedDecisions env row) after) := by
  have hrange : ¬(limit < 1 ∨ limit > kMaxLifecycleDecisionPageLimit) := by
    rw [kMaxLifecycleDecisionPageLimit]
    omega
  have hsort := insertionSort_filter
    (fun a b : LifecycleDecision => hlinear.total a.versionId.hex b.versionId.hex)
    (fun a b c => hlinear.trans _ _ _)
    (fun a ha b hb hab hba => eq_of_versionId hnodup ha hb
      (ContentId.hex_injective (hlinear.antisymm _ _ hab hba)))
    fun d : LifecycleDecision => after.all fun after => !env.textLe d.versionId.hex after.hex
  rw [listLifecycleDecisions, failIf_of_false hrange, hrow]
  simp only [orFail_some, ok_bind, FullPages.pageAfter, orderedDecisions, Environment.orderByText,
    idBefore]
  rw [hsort]

/-- The page that begins after a cursor. -/
def decisionPage (env : Environment) (row : LifecycleRunRow) (limit : Nat)
    (after : Option ContentId) : List LifecycleDecision :=
  FullPages.pageAfter (idBefore env) LifecycleDecision.versionId limit (orderedDecisions env row)
    after

theorem handleListLifecycleDecisions_eq (hlinear : LinearText env)
    (hrow : db.lifecycleRuns.find? row.run.runId = some row)
    (hnodup : (row.decisions.map LifecycleDecision.versionId).Nodup) (hlimit : 1 ≤ limit)
    (hmax : limit ≤ 256) (after : Option ContentId) :
    handleListLifecycleDecisions env row.run.runId.str (pageQuery after limit) db =
      (.ok (.lifecycleDecisions (decisionPage env row limit after)
        (FullPages.nextCursor LifecycleDecision.versionId limit (decisionPage env row limit after))),
        db) := by
  have hquery := @parseLifecycleDecisionsQuery_pageQuery limit hlimit hmax after
  have hid : constructUuid row.run.runId.str = .ok row.run.runId := by
    rw [constructUuid, UuidV7.parse_str]
    rfl
  have hpage := listLifecycleDecisions_eq hlinear hrow hnodup hlimit hmax after
  rw [handleListLifecycleDecisions, Stateful.bind_of_ok (Stateful.check_eq_ok.mpr ⟨hquery, rfl⟩),
    Stateful.bind_of_ok (Stateful.check_eq_ok.mpr ⟨hid, rfl⟩), Handler.catching_eq_ok,
    Stateful.bind_eq_ok]
  refine ⟨decisionPage env row limit after, db, ?_, rfl⟩
  simp only [Handler.query, Handler.transaction, hpage, Except.map]
  rfl

theorem clientListLifecycleDecisions_eq (hlinear : LinearText env)
    (hrow : db.lifecycleRuns.find? row.run.runId = some row)
    (hnodup : (row.decisions.map LifecycleDecision.versionId).Nodup) (hlimit : 1 ≤ limit)
    (hmax : limit ≤ 256) (after : Option ContentId) :
    clientListLifecycleDecisions env json clock row.run.runId after limit db =
      (.ok ⟨decisionPage env row limit after, FullPages.nextCursor LifecycleDecision.versionId limit
        (decisionPage env row limit after)⟩, db) := by
  have hrange : ¬(limit < 1 ∨ limit > 256) := by omega
  have hhandle := handleListLifecycleDecisions_eq hlinear hrow hnodup hlimit hmax after
  have hserved : handleRequest env json clock (decisionsRequest row.run.runId after limit) db =
      handleListLifecycleDecisions env row.run.runId.str (pageQuery after limit) db := by
    rw [handleRequest, route_decisionsRequest]
    rfl
  have hsend := (send_eq_ok env json clock).mpr (hserved.trans hhandle)
  rw [clientListLifecycleDecisions, failIf_of_false hrange]
  exact (Stateful.bind_of_ok rfl).trans (Stateful.bind_of_ok hsend)

theorem find?_row_evolves {others : Nat → Db → Db}
    (hothers : ∀ n db, Evolves env (fun _ => True) db (others n db)) (n : Nat)
    (hrow : db.lifecycleRuns.find? row.run.runId = some row) :
    (others n db).lifecycleRuns.find? row.run.runId = some row :=
  invariant_of_step
    (P := fun db : Db => db.lifecycleRuns.find? row.run.runId = some row)
    (fun _ _ hstep hrow => by
      obtain ⟨op, -, heffect⟩ := serviceStep_effect hstep
      exact lifecycleRun_effect heffect hrow) (hothers n db) hrow

theorem explainLoop_eq_follow (hlinear : LinearText env) {others : Nat → Db → Db}
    (hothers : ∀ n db, Evolves env (fun _ => True) db (others n db))
    (hnodup : (row.decisions.map LifecycleDecision.versionId).Nodup) (hlimit : 1 ≤ limit)
    (hmax : limit ≤ 256) (requests : Nat) (after : Option ContentId)
    (found : List LifecycleDecision) {db : Db}
    (hrow : db.lifecycleRuns.find? row.run.runId = some row) :
    ∃ final, explainLoop env json clock others row.run.runId limit requests after found db =
      (.ok (FullPages.follow (decisionPage env row limit) LifecycleDecision.versionId limit requests
        after found), final) := by
  induction requests generalizing after found db with
  | zero => exact ⟨db, rfl⟩
  | succ requests ih =>
      have hnext := find?_row_evolves hothers requests hrow
      have hpage := @clientListLifecycleDecisions_eq env json clock _ _ _ hlinear hnext hnodup hlimit
        hmax after
      rw [explainLoop, Stateful.update_bind, Stateful.bind_of_ok hpage, FullPages.follow]
      cases hcursor : FullPages.nextCursor LifecycleDecision.versionId limit
          (decisionPage env row limit after) with
      | none => exact ⟨_, rfl⟩
      | some next => exact ih (some next) _ hnext

/-- `lifecycle explain` finds every stored decision of a run once, in the strict order of the
database, with one request more than the decisions fill pages. -/
theorem decision_pages_exact (hlinear : LinearText env) (hreachable : Reachable env db)
    (hrow : row ∈ db.lifecycleRuns) (hlimit : 1 ≤ limit) (hmax : limit ≤ 256)
    {others : Nat → Db → Db} (hothers : ∀ n db, Evolves env (fun _ => True) db (others n db)) :
    ∃ listed, listed.Perm row.decisions ∧
      (listed.Pairwise fun a b => env.textLe b.versionId.hex a.versionId.hex = false) ∧
      ∀ requests, row.decisions.length / limit < requests →
        ∃ final, explainLoop env json clock others row.run.runId limit requests none [] db =
          (.ok (some listed), final) := by
  have hnodup := nodup_decisions_of_reachable hreachable row hrow
  have hordered := orderedDecisions_pairwise hlinear hnodup
  refine ⟨orderedDecisions env row, orderedDecisions_perm env row, ?_, fun requests hrequests => ?_⟩
  · refine hordered.imp fun {a b} h => ?_
    rwa [idBefore, Bool.not_eq_true'] at h
  · obtain ⟨final, hloop⟩ := @explainLoop_eq_follow env json clock row limit hlinear others hothers
      hnodup hlimit hmax requests none [] db (Table.find?_of_mem hrow)
    rw [← (orderedDecisions_perm env row).length_eq] at hrequests
    have hfollow : FullPages.follow (decisionPage env row limit) LifecycleDecision.versionId limit
        requests none [] = some (orderedDecisions env row) :=
      FullPages.follow_all (idBefore_asymm hlinear) hlimit hordered hrequests
    rw [hfollow] at hloop
    exact ⟨final, hloop⟩

end

namespace Sample

theorem linearText_env : LinearText Metadata.Sample.env := by
  have h := strictComparison_string.linear
  simpa only [LinearText, Metadata.Sample.env, Bool.not_eq_true', decide_eq_false_iff_not] using h

end Sample

/-- Each of two decisions fills a page of limit 1. -/
theorem decision_pages_exact_sample :
    let db := afterOps Metadata.Sample.env .initial
      (Metadata.Sample.pushOps ++ Metadata.Sample.childOps ++ Metadata.Sample.retireOps)
    ∃ row ∈ db.lifecycleRuns, row.decisions.length = 2 ∧
      ∃ listed, listed.Perm row.decisions ∧
        (listed.Pairwise fun a b =>
          Metadata.Sample.env.textLe b.versionId.hex a.versionId.hex = false) ∧
        ∀ requests, row.decisions.length / 1 < requests →
          ∃ final, explainLoop Metadata.Sample.env treeJson ⟨0, 0⟩ (fun _ db => db)
            row.run.runId 1 requests none [] db = (.ok (some listed), final) := by
  intro db
  have hrow : ((db.lifecycleRuns.find? (Metadata.Sample.uuid 5)).map
      fun row => row.decisions.length) = some 2 := by
    decide +kernel
  obtain ⟨row, hfind, hlength⟩ := Option.map_eq_some_iff.mp hrow
  have hmem := Table.mem_of_find? hfind
  have hmax : 1 ≤ 256 := by decide
  have hreachable : Reachable Metadata.Sample.env db := reachable_afterOps _ _
  have hexact := @decision_pages_exact Metadata.Sample.env treeJson ⟨0, 0⟩ _ row 1
    Sample.linearText_env hreachable hmem (Nat.le_refl 1) hmax (fun _ db => db)
    fun _ _ => Relation.ReflTransGen.refl
  exact ⟨row, hmem, hlength, hexact⟩

end AiArtifactStore.Service
