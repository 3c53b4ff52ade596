import Mathlib.Data.List.Infix
import Hivebook.Database.Manifest
import Hivebook.Server.Requests

/-!
# The search for projects

`ListProjects` filters the catalog by name.  The query is put between two `%` and handed to
`ILIKE`, as it is: a `%`, a `_` or a backslash of the query is not looked for but read as a
wildcard or an escape.

## Main definitions

* `PlainText` — a text without a wildcard or an escape.
* `literally` — a text that a pattern matches, with its wildcards filled in and its escapes gone.
* `CaseFolding` — the lower case of the collation.
* `Database.searchUnits` — the units whose name contains a text.
* `SearchesByName` — `ListProjects` answers with these units, on every site.

## Main results

* `like_infix_iff` — between two `%`, a plain text matches exactly what contains it.
* `like_literally`, `not_infix_literally` — a text that is not plain matches something that does
  not contain it.
* `returns_listProjects` — what `ListProjects` answers.
* `searchesByName_iff` — **which queries are searched for by name.**
-/

namespace Hivebook

open Machine Requests

/-! ### Patterns -/

/-- A character that `LIKE` reads as something else than itself. -/
def isSpecial (c : Char) : Bool := decide (c ∈ ['%', '_', '\\'])

/-- The text has no wildcard and no escape. -/
def PlainText (p : List Char) : Prop := ∀ c ∈ p, isSpecial c = false

instance (p : List Char) : Decidable (PlainText p) :=
  decidable_of_iff (p.all fun c => !isSpecial c) <| by
    simp only [PlainText, List.all_eq_true, Bool.not_eq_true']

section Like

variable {c : Char} {p s : List Char}

theorem like_percent : like ('%' :: p) s = true ↔ ∃ t, t <:+ s ∧ like p t = true := by
  show (s.tails.any fun t => like p t) = true ↔ _
  rw [List.any_eq_true]
  simp only [List.mem_tails]

/-- A character that is neither a wildcard nor an escape is matched by itself. -/
theorem like_cons_iff (hpercent : c ≠ '%') (hunderscore : c ≠ '_')
    (hescape : ∀ (c' : Char) (p' : List Char), c = '\\' → p = c' :: p' → False) :
    like (c :: p) s = true ↔ ∃ t, s = c :: t ∧ like p t = true := by
  cases s with
  | nil =>
    have hnil : like (c :: p) [] = false := by
      rw [like]
      · exact hpercent
      · exact hunderscore
      · exact hescape
    rw [hnil]
    exact iff_of_false Bool.false_ne_true fun ⟨t, h, _⟩ => List.cons_ne_nil c t h.symm
  | cons d t =>
    have hcons : like (c :: p) (d :: t) = (decide (d = c) && like p t) := by
      rw [like]
      · exact hpercent
      · exact hunderscore
      · exact hescape
    rw [hcons, Bool.and_eq_true, decide_eq_true_eq]
    constructor
    · rintro ⟨rfl, hlike⟩
      exact ⟨t, rfl, hlike⟩
    · rintro ⟨t', heq, hlike⟩
      obtain ⟨rfl, rfl⟩ := List.cons.inj heq
      exact ⟨rfl, hlike⟩

theorem isSpecial_eq_false_iff : isSpecial c = false ↔ c ≠ '%' ∧ c ≠ '_' ∧ c ≠ '\\' := by
  unfold isSpecial
  rw [decide_eq_false_iff_not]
  simp only [List.mem_cons, List.not_mem_nil, or_false, not_or, ne_eq]

/-- A plain text and then anything. -/
theorem like_prefix_iff (h : PlainText p) : like (p ++ ['%']) s = true ↔ p <+: s := by
  induction p generalizing s with
  | nil =>
    refine iff_of_true (like_percent.mpr ⟨[], List.nil_suffix, rfl⟩) List.nil_prefix
  | cons c p ih =>
    obtain ⟨hpercent, hunderscore, hescape⟩ := isSpecial_eq_false_iff.mp (h c List.mem_cons_self)
    rw [List.cons_append, like_cons_iff hpercent hunderscore fun _ _ heq _ => hescape heq]
    constructor
    · rintro ⟨t, rfl, hlike⟩
      exact List.cons_prefix_cons.mpr
        ⟨rfl, (ih fun c' hc' => h c' (List.mem_cons_of_mem c hc')).mp hlike⟩
    · rintro ⟨t, rfl⟩
      exact ⟨p ++ t, rfl, (ih fun c' hc' => h c' (List.mem_cons_of_mem c hc')).mpr
        (List.prefix_append p t)⟩

/-- **Between two `%`, a plain text matches exactly what contains it.** -/
theorem like_infix_iff (h : PlainText p) : like ('%' :: (p ++ ['%'])) s = true ↔ p <:+: s := by
  rw [like_percent, List.infix_iff_prefix_suffix]
  constructor
  · rintro ⟨t, ht, hlike⟩
    exact ⟨t, (like_prefix_iff h).mp hlike, ht⟩
  · rintro ⟨t, hlike, ht⟩
    exact ⟨t, ht, (like_prefix_iff h).mpr hlike⟩

end Like

/-! ### What a pattern matches besides -/

/-- A text that a pattern matches: nothing in the place of a `%`, this letter in the place of a
`_`, and an escaped character without its escape. -/
def literally (letter : Char) : List Char → List Char
  | [] => []
  | '%' :: p => literally letter p
  | '_' :: p => letter :: literally letter p
  | '\\' :: c :: p => c :: literally letter p
  | c :: p => c :: literally letter p

theorem literally_cons {letter c : Char} {p : List Char} (hpercent : c ≠ '%')
    (hunderscore : c ≠ '_')
    (hescape : ∀ (c' : Char) (p' : List Char), c = '\\' → p = c' :: p' → False) :
    literally letter (c :: p) = c :: literally letter p := by
  rw [literally]
  · exact hpercent
  · exact hunderscore
  · exact hescape

/-- A pattern matches the text that is made of it. -/
theorem like_literally (letter : Char) (p : List Char) : like p (literally letter p) = true := by
  induction p using literally.induct with
  | case1 => rfl
  | case2 p ih => exact like_percent.mpr ⟨_, List.suffix_rfl, ih⟩
  | case3 p ih => exact ih
  | case4 c p ih =>
    show (decide (c = c) && like p (literally letter p)) = true
    rw [ih, decide_eq_true rfl, Bool.and_self]
  | case5 c p hpercent hunderscore hescape ih =>
    rw [literally_cons hpercent hunderscore hescape]
    exact (like_cons_iff hpercent hunderscore hescape).mpr ⟨_, rfl, ih⟩

/-- A last `\\` escapes the `%` after it; any other character is read as it was. -/
theorem lone_or_cons {c : Char} {p : List Char}
    (hescape : ∀ (c' : Char) (p' : List Char), c = '\\' → p = c' :: p' → False) :
    (c = '\\' ∧ p = []) ∨ c ≠ '\\' := by
  by_cases hc : c = '\\'
  · left
    cases p with
    | nil => exact ⟨hc, rfl⟩
    | cons c' p' => exact absurd rfl (hescape c' p' hc)
  · exact Or.inr hc

/-- The text that is made of a pattern is no longer than the pattern. -/
theorem length_literally_le (letter : Char) (p : List Char) :
    (literally letter (p ++ ['%'])).length ≤ p.length := by
  induction p using literally.induct with
  | case1 => exact le_rfl
  | case2 p ih => exact Nat.le_succ_of_le ih
  | case3 p ih => exact Nat.succ_le_succ ih
  | case4 c p ih => exact Nat.le_succ_of_le (Nat.succ_le_succ ih)
  | case5 c p hpercent hunderscore hescape ih =>
    rcases lone_or_cons hescape with ⟨rfl, rfl⟩ | hc
    · exact le_rfl
    · rw [List.cons_append, literally_cons hpercent hunderscore fun _ _ heq _ => hc heq]
      exact Nat.succ_le_succ ih

/-- Only a plain text is read as it is. -/
theorem plain_of_literally {letter : Char} (hletter : letter ≠ '_') {p : List Char}
    (h : literally letter (p ++ ['%']) = p) : PlainText p := by
  induction p using literally.induct with
  | case1 => exact fun c hc => absurd hc List.not_mem_nil
  | case2 p ih =>
    have hlen := length_literally_le letter p
    rw [show literally letter (p ++ ['%']) = '%' :: p from h, List.length_cons] at hlen
    omega
  | case3 p ih =>
    exact absurd (List.cons.inj h).1 hletter
  | case4 c p ih =>
    have hlen := length_literally_le letter p
    have hrest : literally letter (p ++ ['%']) = c :: p := (List.cons.inj h).2
    rw [hrest, List.length_cons] at hlen
    omega
  | case5 c p hpercent hunderscore hescape ih =>
    rcases lone_or_cons hescape with ⟨rfl, rfl⟩ | hc
    · exact absurd (List.cons.inj h).1 (by decide)
    · rw [List.cons_append, literally_cons hpercent hunderscore fun _ _ heq _ => hc heq] at h
      intro c' hc'
      rcases List.mem_cons.mp hc' with rfl | hc'
      · exact isSpecial_eq_false_iff.mpr ⟨hpercent, hunderscore, hc⟩
      · exact ih (List.cons.inj h).2 c' hc'

/-- **A text that is not plain matches something that does not contain it.** -/
theorem not_infix_literally {letter : Char} (hletter : letter ≠ '_') {p : List Char}
    (h : ¬ PlainText p) : ¬ p <:+: literally letter (p ++ ['%']) := by
  intro hinfix
  have heq := hinfix.eq_of_length_le (length_literally_le letter p)
  exact h (plain_of_literally hletter heq.symm)

/-! ### The collation -/

/-- The lower case of a collation, character by character: what `LIKE` reads as something else
than itself is in lower case, and comes of nothing else. -/
structure CaseFolding where
  fold : Char → Char
  fold_special : ∀ c, isSpecial c = true ∨ isSpecial (fold c) = true → fold c = c

namespace CaseFolding

variable (F : CaseFolding)

/-- `lower`. -/
def lower (s : String) : String := String.ofList (s.toList.map F.fold)

theorem isSpecial_fold (c : Char) : isSpecial (F.fold c) = isSpecial c := by
  cases hc : isSpecial c with
  | true => rw [F.fold_special c (Or.inl hc), hc]
  | false =>
    by_contra hfold
    rw [Bool.not_eq_false] at hfold
    rw [F.fold_special c (Or.inr hfold), hc] at hfold
    cases hfold

theorem plain_map (p : List Char) : PlainText (p.map F.fold) ↔ PlainText p := by
  unfold PlainText
  simp only [List.mem_map, forall_exists_index, and_imp, forall_apply_eq_imp_iff₂,
    F.isSpecial_fold]

/-- The text that is made of a pattern, in lower case. -/
theorem map_literally (letter : Char) (p : List Char) :
    (literally letter p).map F.fold = literally (F.fold letter) (p.map F.fold) := by
  have hspecial : ∀ c, isSpecial c = true → F.fold c = c := fun c hc => F.fold_special c (Or.inl hc)
  induction p using literally.induct with
  | case1 => rfl
  | case2 p ih =>
    rw [List.map_cons, hspecial '%' rfl]
    exact ih
  | case3 p ih =>
    rw [List.map_cons, hspecial '_' rfl]
    exact congrArg (F.fold letter :: ·) ih
  | case4 c p ih =>
    rw [List.map_cons, List.map_cons, hspecial '\\' rfl]
    exact congrArg (F.fold c :: ·) ih
  | case5 c p hpercent hunderscore hescape ih =>
    -- a character that is folded to a special one is that one
    have hback : ∀ k, isSpecial k = true → F.fold c = k → c = k := by
      intro k hk hfold
      rw [← hfold]
      exact (F.fold_special c (Or.inr (by rw [hfold, hk]))).symm
    rw [literally_cons hpercent hunderscore hescape, List.map_cons, List.map_cons, ih,
      literally_cons (fun h => hpercent (hback '%' rfl h)) fun h => hunderscore (hback '_' rfl h)]
    intro c' p' hc hp
    cases p with
    | nil => cases hp
    | cons d p => exact hescape d p (hback '\\' rfl hc) rfl

@[simp] theorem toList_lower (s : String) : (F.lower s).toList = s.toList.map F.fold :=
  String.toList_ofList

end CaseFolding

/-- The name contains the text, compared without case. -/
def containsFold (lower : String → String) (name text : String) : Bool :=
  decide ((lower text).toList <:+: (lower name).toList)

/-- The pattern of a search, in lower case. -/
theorem ilike_eq (F : CaseFolding) (name text : String) :
    ilike F.lower name ("%" ++ text ++ "%") =
      like ('%' :: (text.toList.map F.fold ++ ['%'])) (name.toList.map F.fold) := by
  have hpercent : F.fold '%' = '%' := F.fold_special '%' (Or.inl rfl)
  unfold ilike
  rw [F.toList_lower, F.toList_lower, String.toList_append, String.toList_append]
  simp only [List.map_append]
  show like (F.fold '%' :: [] ++ _ ++ F.fold '%' :: []) _ = _
  rw [hpercent]
  rfl

/-- A plain text is searched for. -/
theorem ilike_of_plain (F : CaseFolding) {text : String} (h : PlainText text.toList)
    (name : String) : ilike F.lower name ("%" ++ text ++ "%") = containsFold F.lower name text := by
  have hplain := (F.plain_map text.toList).mpr h
  rw [ilike_eq, containsFold, F.toList_lower, F.toList_lower, Bool.eq_iff_iff, decide_eq_true_eq]
  exact like_infix_iff hplain

/-- A name that a text is found in by mistake, if it is not plain. -/
def mistaken (text : String) : String := String.ofList (literally 'x' (text.toList ++ ['%']))

/-- **A text that is not plain is found in a name that does not contain it.** -/
theorem ilike_mistaken (F : CaseFolding) {text : String} (h : ¬ PlainText text.toList) :
    ilike F.lower (mistaken text) ("%" ++ text ++ "%") = true ∧
      containsFold F.lower (mistaken text) text = false := by
  have hpercent : F.fold '%' = '%' := F.fold_special '%' (Or.inl rfl)
  have hname : (mistaken text).toList.map F.fold =
      literally (F.fold 'x') (text.toList.map F.fold ++ ['%']) := by
    rw [mistaken, String.toList_ofList, F.map_literally, List.map_append, List.map_singleton,
      hpercent]
  -- the letter in the place of `_` is not folded to one
  have hletter : F.fold 'x' ≠ '_' := by
    intro hfold
    have hx := F.isSpecial_fold 'x'
    rw [hfold] at hx
    exact absurd hx (by decide)
  constructor
  · rw [ilike_eq, hname]
    exact like_percent.mpr ⟨_, List.suffix_rfl, like_literally _ _⟩
  · rw [containsFold, F.toList_lower, F.toList_lower, hname, decide_eq_false_iff_not]
    exact not_infix_literally hletter (mt (F.plain_map text.toList).mp h)

/-! ### The catalog -/

namespace Database

variable {db : Database} {id : Uuid} {tenantID : String}

/-- The units of a connection that are found by name, in the order of the settings list. -/
def unitsFound (found : String → Bool) (connectionID : Uuid) (db : Database) : List SyncUnit :=
  (db.units.rows.filter fun u => decide (u.connectionID = connectionID) &&
    found u.name).insertionSort fun u u' => u.externalID ≤ u'.externalID

/-- The units of a connection whose name contains a text. -/
def searchUnits (lower : String → String) (connectionID : Uuid) (text : String) (db : Database) :
    List SyncUnit :=
  db.unitsFound (fun name => containsFold lower name text) connectionID

theorem mem_unitsFound {found : String → Bool} {u : SyncUnit} :
    u ∈ db.unitsFound found id ↔
      u ∈ db.units.rows ∧ u.connectionID = id ∧ found u.name = true := by
  unfold unitsFound
  rw [List.mem_insertionSort, List.mem_filter, Bool.and_eq_true, decide_eq_true_eq]

/-- A connection that is found is the tenant's. -/
theorem owns_of_getConnection {conn : Connection} (h : getConnection id tenantID db = .ok conn) :
    db.owns tenantID id = true := by
  unfold getConnection one at h
  split at h
  · next hfind =>
    have hp := List.find?_some hfind
    simp only [Bool.and_eq_true, decide_eq_true_eq] at hp
    refine List.any_eq_true.mpr ⟨_, List.mem_of_find?_eq_some hfind, ?_⟩
    rw [decide_eq_true hp.1.1, decide_eq_true hp.1.2, Bool.and_self]
  · cases h

/-- The query lists what its pattern finds, of a connection that is the tenant's. -/
theorem listSyncUnits_eq_unitsFound (F : CaseFolding) (text : String)
    (howns : db.owns tenantID id = true) : listSyncUnits F.lower id tenantID text db =
      db.unitsFound (fun name => ilike F.lower name ("%" ++ text ++ "%")) id := by
  unfold listSyncUnits unitsFound
  refine congrArg (List.insertionSort _) (List.filter_congr fun u _ => ?_)
  by_cases hid : u.connectionID = id
  · rw [hid, howns, Bool.and_true]
    refine congrArg (decide (id = id) && ·) ?_
    -- the pattern of the empty text finds every name
    by_cases hempty : text = ""
    · subst hempty
      have hall : ilike F.lower u.name ("%" ++ "" ++ "%") = true := by
        rw [ilike_of_plain F (fun c hc => absurd hc List.not_mem_nil), containsFold, F.toList_lower]
        exact decide_eq_true List.nil_infix
      rw [decide_eq_true rfl, Bool.true_or]
      exact hall.symm
    · rw [decide_eq_false hempty, Bool.false_or]
  · rw [decide_eq_false hid, Bool.false_and, Bool.false_and, Bool.false_and]

end Database

/-! ### The request -/

/-- What `ListProjects` sends for some units. -/
def projectsOf (w : Site) (units : List SyncUnit) : List ProtoProject :=
  units.map fun u => toProtoProject (u, w.estimatedAt u.id)

/-- **What is sent tells which names were found**: the units of a connection differ in their
`external_id`. -/
theorem projectsOf_eq_iff (w : Site) (id : Uuid) (found found' : String → Bool) :
    projectsOf w (w.world.db.unitsFound found id) = projectsOf w (w.world.db.unitsFound found' id) ↔
      ∀ u ∈ w.world.db.units.rows, u.connectionID = id → found u.name = found' u.name := by
  constructor
  · intro heq u hu hid
    have hids : ∀ f, (projectsOf w (w.world.db.unitsFound f id)).map ProtoProject.id =
        (w.world.db.unitsFound f id).map SyncUnit.externalID := by
      intro f
      rw [projectsOf, List.map_map]
      rfl
    -- a unit is sent exactly if its name is found
    have hsent : ∀ f, u.externalID ∈ (projectsOf w (w.world.db.unitsFound f id)).map
        ProtoProject.id ↔ f u.name = true := by
      intro f
      rw [hids f, List.mem_map]
      constructor
      · rintro ⟨u', hu', hsame⟩
        obtain ⟨hrow, hid', hfound⟩ := Database.mem_unitsFound.mp hu'
        have hkey : u'.key = u.key := Prod.ext (hid'.trans hid.symm) hsame
        rw [← w.world.db.units.eq_of_key hrow hu hkey]
        exact hfound
      · intro hfound
        exact ⟨u, Database.mem_unitsFound.mpr ⟨hu, hid, hfound⟩, rfl⟩
    rw [Bool.eq_iff_iff, ← hsent found, ← hsent found', heq]
  · intro hsame
    unfold Database.unitsFound
    refine congrArg (fun rows => projectsOf w (List.insertionSort _ rows))
      (List.filter_congr fun u hu => ?_)
    by_cases hid : u.connectionID = id
    · rw [hsame u hu hid]
    · rw [decide_eq_false hid, Bool.false_and, Bool.false_and]

variable {lower : String → String} {tenant : Option String} {connectionID : Uuid} {search : String}
  {cancelled cancelled' : Bool} {w w' : Site} {ls : List (Performed Site SiteChoice SiteCmd)}
  {projects : List ProtoProject}

/-- A command without an effect on the database leaves the catalog alone. -/
theorem site_of_still (lower : String → String) (w : Site) {c : Cmd}
    (hdb : ∀ v : World, (c.effect v).db = v.db)
    (hestimated : ∀ now, w.estimated now c = w.estimatedAt) (x : SiteChoice) (b : Bool) :
    ((site lower).perform x b w (.service c)).1.world.db = w.world.db ∧
      ((site lower).perform x b w (.service c)).1.estimatedAt = w.estimatedAt := by
  constructor
  · show (service.perform x.service b w.world c).1.db = _
    rw [service_state]
    split
    · exact hdb _
    · rfl
  · show (if x.service.takesEffect b = true then w.estimated _ c else w.estimatedAt) = _
    split
    · exact hestimated _
    · rfl

/-- What a snapshot of the catalog holds. -/
theorem returns_sendProjects {t : String} {text : String}
    (h : (site lower).Returns (sendProjects t connectionID text) cancelled w ls (.ok projects)
      cancelled' w') :
    projects = projectsOf w (Database.listSyncUnits lower connectionID t text w.world.db) := by
  obtain ⟨x, ls', -, h⟩ := Returns.of_call h
  cases hreply : ((site lower).perform x.choice (cancelled || x.cancel) w
      (.query (.listSyncUnits connectionID t text))).2 with
  | error e =>
    rw [hreply] at h
    cases (Returns.of_pure h).2.1
  | ok rows =>
    rw [hreply] at h
    have hrows := Except.ok.inj (of_reply_eq_ok hreply).2
    have hprojects := Except.ok.inj (Returns.of_pure h).2.1
    rw [hprojects, ← hrows, projectsOf, List.map_map]
    rfl

/-- **What `ListProjects` answers**, if it answers with projects: the connection is a tenant's, and
the projects are the units that the query lists. -/
theorem returns_listProjects (h : (site lower).Returns (listProjects tenant connectionID search)
    cancelled w ls (.ok projects) cancelled' w') : ∃ t, w.world.db.owns t connectionID = true ∧
      projects = projectsOf w
        (Database.listSyncUnits lower connectionID t (trimSpace search) w.world.db) := by
  unfold listProjects forConnection forTenant at h
  cases htenant : requireTenant tenant with
  | error e =>
    rw [htenant] at h
    cases (Returns.of_pure h).2.1
  | ok t =>
    rw [htenant] at h
    obtain ⟨x, ls₁, -, h⟩ := Returns.of_call h
    obtain ⟨hdb₁, hest₁⟩ := site_of_still lower w
      (c := .statement (.getConnection connectionID t)) (fun _ => rfl) (fun _ => rfl) x.choice
      (cancelled || x.cancel)
    have hfound : ∀ conn, ((site lower).perform x.choice (cancelled || x.cancel) w
        (.service (.statement (.getConnection connectionID t)))).2 = .ok conn →
        Database.getConnection connectionID t w.world.db = .ok conn :=
      fun conn hreply => (of_reply_eq_ok hreply).2
    generalize (site lower).perform x.choice (cancelled || x.cancel) w
      (.service (.statement (.getConnection connectionID t))) = res₁ at h hdb₁ hest₁ hfound
    obtain ⟨w₁, found⟩ := res₁
    cases found with
    | error e => cases (Returns.of_pure h).2.1
    | ok conn =>
      obtain ⟨-, hid⟩ := mem_of_getConnection (hfound conn rfl)
      obtain ⟨y, ls₂, -, h⟩ := Returns.of_call h
      obtain ⟨hdb₂, hest₂⟩ := site_of_still lower w₁
        (c := .signalWorkflow conn.id .refreshCatalog) (fun _ => rfl) (fun _ => rfl) y.choice
        (cancelled || x.cancel || y.cancel)
      have hsent := returns_sendProjects h
      refine ⟨t, Database.owns_of_getConnection (hfound conn rfl), hsent.trans ?_⟩
      unfold projectsOf
      rw [hdb₂, hest₂, hdb₁, hest₁, hid]

/-- **When `ListProjects` answers exactly with what contains the query**: no name of the connection
is one on which the pattern and the query differ. -/
theorem listed_exactly_iff (F : CaseFolding)
    (h : (site F.lower).Returns (listProjects tenant connectionID search) cancelled w ls
      (.ok projects) cancelled' w') :
    projects = projectsOf w (w.world.db.searchUnits F.lower connectionID (trimSpace search)) ↔
      ∀ u ∈ w.world.db.units.rows, u.connectionID = connectionID →
        ilike F.lower u.name ("%" ++ trimSpace search ++ "%") =
          containsFold F.lower u.name (trimSpace search) := by
  obtain ⟨t, howns, hlisted⟩ := returns_listProjects h
  rw [hlisted, Database.listSyncUnits_eq_unitsFound F _ howns]
  exact projectsOf_eq_iff w connectionID _ _

/-- `ListProjects` answers with projects, if nothing fails and the connection is the tenant's. -/
theorem exists_returns_listProjects (lower : String → String) {t : String} {conn : Connection}
    (htenant : requireTenant tenant = .ok t)
    (hconn : Database.getConnection connectionID t w.world.db = .ok conn) (x : SiteChoice)
    (search : String) : ∃ projects ls w', (site lower).Returns
      (listProjects tenant connectionID search) false w ls (.ok projects) false w' := by
  have hfound : ((site lower).perform (undisturbed x 0).choice (false || (undisturbed x 0).cancel) w
      (.service (.statement (.getConnection connectionID t)))).2 = .ok conn := hconn
  -- once the connection is found, the signal and the query are answered
  obtain ⟨projects, ls, w', hrest⟩ : ∃ projects ls w', (site lower).Returns
      (do let _ ← signalConnection conn .refreshCatalog
          sendProjects t conn.id (trimSpace search) : SiteProgram _) false
      ((site lower).perform (undisturbed x 0).choice false w
        (.service (.statement (.getConnection connectionID t)))).1 ls (.ok projects) false w' :=
    ⟨_, _, _, .call (undisturbed x 0) (.call (undisturbed x 0) (.pure _ _ _))⟩
  refine ⟨projects, ⟨w, .service (.statement (.getConnection connectionID t)), false,
    (undisturbed x 0).choice⟩ :: ls, w', ?_⟩
  unfold listProjects forConnection forTenant
  rw [htenant]
  refine .call (undisturbed x 0) ?_
  dsimp only
  rw [hfound]
  exact hrest

/-! ### Which queries are searched for -/

/-- `ListProjects` answers with the units whose name contains the trimmed query, on every site and
however the request fares, if it answers with projects. -/
def SearchesByName (lower : String → String) (search : String) : Prop :=
  ∀ (tenant : Option String) (connectionID : Uuid) (cancelled cancelled' : Bool) (w w' : Site)
    (ls : List (Performed Site SiteChoice SiteCmd)) (projects : List ProtoProject),
    (site lower).Returns (listProjects tenant connectionID search) cancelled w ls (.ok projects)
      cancelled' w' →
    projects = projectsOf w (w.world.db.searchUnits lower connectionID (trimSpace search))

/-- A connection of a tenant. -/
def acmeConnection : Connection :=
  { id := 0, tenantID := "acme", region := "eu", connectorID := "github", status := .connected
    account := "acme", accessToken := [], refreshToken := none, tokenExpiry := none, scopes := ""
    installationID := "1", externalID := "acme", lastError := "", lastSuccessAt := none
    deletedAt := none, catalogDiscoveredAt := none, onboarded := true }

/-- A unit of the connection, of any name. -/
def acmeUnit (name : String) : SyncUnit :=
  { id := 0, connectionID := 0, externalID := name, name, kind := "github_repo", selected := false
    cursor := "", status := .idle, generation := 1, lastSeenAt := none, lastError := ""
    nextRetryAt := none, committedAt := none, artifactCount := 0, totalEstimate := 0
    updatedAt := 0 }

/-- The connection with this unit. -/
def siteWithUnit (name : String) : Site where
  world :=
    { db :=
        { Database.empty with
          connections :=
            { rows := [acmeConnection], next := 1, id_lt := by decide
              nodup_id := List.nodup_singleton _, nodup_key := List.nodup_singleton _ }
          units :=
            { rows := [acmeUnit name], next := 1
              id_lt := fun r hr => by rw [List.mem_singleton.mp hr]; exact Nat.zero_lt_one
              nodup_id := List.nodup_singleton _, nodup_key := List.nodup_singleton _ } }
      objects := fun _ => none
      now := 0 }
  schedules _ := { autoSyncEnabled := false, syncIntervalSeconds := 900 }
  estimatedAt _ := none

/-- **A query that is not plain is not searched for**: it lists a unit whose name does not contain
it. -/
theorem not_searchesByName (F : CaseFolding) {search : String}
    (h : ¬ PlainText (trimSpace search).toList) : ¬ SearchesByName F.lower search := by
  intro hsearches
  obtain ⟨hfound, habsent⟩ := ilike_mistaken F h
  have htenant : requireTenant (some "acme") = .ok "acme" := rfl
  have hconn : Database.getConnection 0 "acme"
      (siteWithUnit (mistaken (trimSpace search))).world.db = .ok acmeConnection := rfl
  obtain ⟨projects, ls, w', hrun⟩ := exists_returns_listProjects F.lower htenant hconn
    ⟨{ outcome := .applied, elapsed := 0, answer := fun _ => .error .canceled }, .delivered⟩ search
  -- the unit is listed, and it should not be
  have hsame := (listed_exactly_iff F hrun).mp (hsearches _ _ _ _ _ _ _ _ hrun)
    (acmeUnit (mistaken (trimSpace search))) List.mem_cons_self rfl
  rw [show (acmeUnit (mistaken (trimSpace search))).name = mistaken (trimSpace search) from rfl,
    hfound, habsent] at hsame
  cases hsame

/-- **Which queries are searched for by name**: `ListProjects` answers, for every tenant,
connection and catalog, with the units whose name contains the trimmed query, if and only if the
trimmed query has no `%`, no `_` and no backslash. -/
theorem searchesByName_iff (F : CaseFolding) (search : String) :
    SearchesByName F.lower search ↔ PlainText (trimSpace search).toList := by
  constructor
  · intro hsearches
    by_contra hplain
    exact not_searchesByName F hplain hsearches
  · intro hplain tenant connectionID cancelled cancelled' w w' ls projects hrun
    exact (listed_exactly_iff F hrun).mpr fun u _ _ => ilike_of_plain F hplain u.name

/-- The lower case of the letters `A` to `Z`. -/
def asciiFold (c : Char) : Char :=
  if 65 ≤ c.toNat ∧ c.toNat ≤ 90 then Char.ofNat (c.toNat + 32) else c

/-- The collation that knows these letters. -/
def asciiFolding : CaseFolding where
  fold := asciiFold
  fold_special c h := by
    have hletters : ∀ n < 26, isSpecial (Char.ofNat (65 + n)) = false ∧
        isSpecial (Char.ofNat (65 + n + 32)) = false := by decide
    unfold asciiFold at h ⊢
    by_cases hupper : 65 ≤ c.toNat ∧ c.toNat ≤ 90
    · -- neither a capital nor its small letter is special
      obtain ⟨hcapital, hsmall⟩ := hletters (c.toNat - 65) (by omega)
      rw [Nat.add_sub_cancel' hupper.1] at hcapital hsmall
      rw [Char.ofNat_toNat] at hcapital
      rw [if_pos hupper, hcapital, hsmall] at h
      rcases h with h | h
      · cases h
      · cases h
    · rw [if_neg hupper]

/-- The name `axb` is listed for `a_b`, and no query with a wildcard or an escape is searched
for. -/
theorem underscore_not_searched : mistaken "a_b" = "axb" ∧
    ¬ SearchesByName asciiFolding.lower "a_b" ∧ ¬ SearchesByName asciiFolding.lower "50%" ∧
    ¬ SearchesByName asciiFolding.lower "a\\b" :=
  ⟨by decide +kernel, not_searchesByName _ (by decide +kernel),
    not_searchesByName _ (by decide +kernel), not_searchesByName _ (by decide +kernel)⟩

end Hivebook
