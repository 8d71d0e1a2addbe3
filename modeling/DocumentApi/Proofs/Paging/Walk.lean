import DocumentApi.Proofs.Number.PageCount
import DocumentApi.Proofs.Paging.Query
import DocumentApi.Proofs.Paging.Response
import DocumentApi.Proofs.Store.Memory

/-!
Walks along the pages of a list. Each response leads on by its link to the next page, and the last
one has none. Over a store whose documents stay as they are, a walk that starts at the first page
shows each of them once, in the order of the store. Main statement: `Listing.walk_shows_all`.
-/

set_option autoImplicit false

namespace DocumentApi.Service

open DocumentApi.Representation

variable {σ : Type}

def ListRequest.ofLink (accept : Option String) (link : String) : Answer ListRequest := do
  let u ← RelativeUrl.ofText link
  return ⟨stringPairs u.params, link, accept⟩

/-- The responses that a client gets from a link on, until one has no link to a next page. -/
inductive Walk (s : Service σ) (accept : Option String) :
    Session σ → String → List Response → Prop where
  | last {session after : Session σ} {link : String} {request : ListRequest} {response : Response}
      (hlink : ListRequest.ofLink accept link = .ok request)
      (hrun : outcome (s.list request) session = (.ok response, after))
      (hnext : response.link? "next" = none) :
    Walk s accept session link [response]
  | more {session after : Session σ} {link next : String} {request : ListRequest}
      {response : Response} {rest : List Response}
      (hlink : ListRequest.ofLink accept link = .ok request)
      (hrun : outcome (s.list request) session = (.ok response, after))
      (hnext : response.link? "next" = some next) (hrest : Walk s accept after next rest) :
    Walk s accept session link (response :: rest)

theorem Walk.unique {s : Service σ} {accept : Option String} {session : Session σ} {link : String}
    {responses others : List Response} (h : Walk s accept session link responses)
    (h' : Walk s accept session link others) : responses = others := by
  induction h generalizing others with
  | last hlink hrun hnext =>
    cases h' with
    | last hlink' hrun' hnext' =>
      cases hlink.symm.trans hlink'
      cases hrun.symm.trans hrun'
      rfl
    | more hlink' hrun' hnext' hrest' =>
      cases hlink.symm.trans hlink'
      cases hrun.symm.trans hrun'
      cases hnext.symm.trans hnext'
  | more hlink hrun hnext hrest ih =>
    cases h' with
    | last hlink' hrun' hnext' =>
      cases hlink.symm.trans hlink'
      cases hrun.symm.trans hrun'
      cases hnext.symm.trans hnext'
    | more hlink' hrun' hnext' hrest' =>
      cases hlink.symm.trans hlink'
      cases hrun.symm.trans hrun'
      cases hnext.symm.trans hnext'
      rw [ih hrest']

/-- For every page of a plan, and however often it is asked, the store gives the same documents. -/
structure Lists (store : DocumentStore σ) (steady : σ → Prop) (plan : Plan)
    (documents : List Document) : Prop where
  find : ∀ state page, steady state → ∃ after, steady after ∧
    outcome (store.find { plan with page }.request) state =
      (.ok ((documents.drop page.offset).take page.size), after)
  count : ∀ state, steady state → ∃ after, steady after ∧
    outcome (store.count plan.query) state = (.ok (documents.length : Int), after)

/-- The collection in memory lists the documents that match, whatever is noted of it. -/
theorem lists_memory (stored : List Document) (plan : Plan) :
    Lists Memory.store (fun m => m.documents = stored) plan
      ((stored.filter (Memory.selects plan.query)).map IdCodec.shownDocument) := by
  constructor
  · rintro m page rfl
    have hsize : page.size ≠ 0 := Nat.pos_iff_ne_zero.mp page.size_pos
    refine ⟨m.noted (Collection.findCall { plan with page }.request), rfl, ?_⟩
    rw [Collection.store_find, outcome_map, Memory.outcome_findFor, ← List.map_drop,
      ← List.map_take]
    simp only [Plan.request, Memory.slice, hsize, if_false, Memory.faultOf?_none, Option.elim_none]
    rfl
  · rintro m rfl
    refine ⟨m.noted (.count plan.query), rfl,
      (Memory.outcome_count Disturbance.none m plan.query).trans ?_⟩
    rw [List.length_map]
    rfl

/-- A list request in the JSON:API format, and what it lists: documents of a store that stay as they
are, by identifiers that differ. -/
structure Listing (s : Service σ) (r : ListRequest) (u : RelativeUrl) (plan : Plan)
    (steady : σ → Prop) (documents : List Document) (ids : List String) : Prop where
  planned : s.planned r = .ok (plan, jsonApi)
  lists : Lists s.store steady plan documents
  hasIds : s.HasIds documents ids
  distinct : ids.Nodup
  count : documents.length ≤ 2 ^ 53
  url : RelativeUrl.ofText r.url = .ok u
  params : r.params = stringPairs u.params
  single : ¬ ['/', '/'] <+: u.path.toList
  pageable : DeepObject.Pageable u.params

/-- What is planned of the store does not depend on the page. -/
theorem plan_withPage (s : Service σ) (query : ListQuery) (page : PageRequest) :
    s.plan { query with page } = (s.plan query).map fun plan => { plan with page } := by
  unfold Service.plan
  dsimp only
  cases query.filters.mapM fun fields => s.validator.visitFields fields [] with
  | error failure => rfl
  | ok filters =>
    cases s.projection query.fields with
    | error failure => rfl
    | ok fields =>
      cases s.whitelist.filterSort s.options.policy query.sort <;> rfl

theorem page_of_plan {s : Service σ} {query : ListQuery} {plan : Plan} (h : s.plan query = .ok plan) :
    plan.page = query.page := by
  have hsame := plan_withPage s query query.page
  rw [h] at hsame
  have hplan : plan = { plan with page := query.page } := Except.ok.inj hsame
  exact congrArg Plan.page hplan

namespace Listing

variable {s : Service σ} {r : ListRequest} {u : RelativeUrl} {plan : Plan} {steady : σ → Prop}
  {documents : List Document} {ids : List String}

theorem mem_registry (h : Listing s r u plan steady documents ids) : jsonApi ∈ s.registry.items :=
  Registry.mem_of_negotiate (planned_eq_ok.mp h.planned).2.1

theorem writable (h : Listing s r u plan steady documents ids) : u.Writable :=
  RelativeUrl.writable_of_ofText h.url h.single

theorem answers (h : Listing s r u plan steady documents ids) {request : ListRequest}
    (page : PageRequest) {v : RelativeUrl} {pages : Int}
    (hplanned : s.planned request = .ok ({ plan with page }, jsonApi))
    (hurl : RelativeUrl.ofText request.url = .ok v)
    (hpages : totalPages documents.length page.size = .ok pages) {session : Session σ}
    (hs : steady session.store) :
    ∃ response after, outcome (s.list request) session = (.ok response, after) ∧
      steady after.store ∧ response.dataIds? = some ((ids.drop page.offset).take page.size) ∧
      response.link? "first" = some (PageLinks.linkTo page v 1) ∧
      response.link? "next" = (PageLinks.ofPages pages page v).next := by
  obtain ⟨found, hfound, hf⟩ := h.lists.find session.store page hs
  obtain ⟨last, hlast, hc⟩ := h.lists.count found hfound
  obtain ⟨hanswer, hafter⟩ := outcome_list hplanned hf hc
  have hslice : s.HasIds ((documents.drop page.offset).take page.size)
      ((ids.drop page.offset).take page.size) :=
    List.forall₂_take _ (List.forall₂_drop _ h.hasIds)
  have hdistinct : ((ids.drop page.offset).take page.size).Nodup :=
    h.distinct.sublist ((List.take_sublist _ _).trans (List.drop_sublist _ _))
  obtain ⟨response, hlisted, hshown⟩ :=
    listed_jsonApi { plan with page } h.mem_registry hslice hdistinct hpages hurl
  refine ⟨response, (outcome (s.list request) session).2, ?_, hafter ▸ hlast, hshown⟩
  rw [← hlisted, ← hanswer]

/-- An address of a page, as a link gives it, makes a request for that page of the list. -/
theorem planned_atPage (h : Listing s r u plan steady documents ids) {v : RelativeUrl}
    (page : PageRequest) (hsame : page.size = plan.page.size)
    (hv : AtPage u v page.size page.current) (hread : page.current < 10 ^ Numeral.maxDigits)
    (link : String) :
    s.planned ⟨stringPairs v.params, link, r.accept⟩ = .ok ({ plan with page }, jsonApi) := by
  obtain ⟨hoffered, hchosen, query, hquery, hplan⟩ := planned_eq_ok.mp h.planned
  rw [h.params] at hquery
  rw [page_of_plan hplan] at hsame
  exact planned_eq_ok.mpr ⟨hoffered, hchosen, { query with page },
    parse_atPage h.pageable hquery hsame hv hread, by rw [plan_withPage, hplan]; rfl⟩

theorem number_readable (h : Listing s r u plan steady documents ids) {number : Nat}
    (hle : number ≤ pagesOf documents.length plan.page.size) : number < 10 ^ Numeral.maxDigits := by
  have hpages := hle.trans (pagesOf_le plan.page.size_pos)
  have hcount := h.count
  have hdigits : 2 ^ 53 < 10 ^ Numeral.maxDigits := by decide +kernel
  omega

/-- One step of a walk: the page of a link is shown, and the response leads on to the next page
unless it was the last. -/
theorem page_response (h : Listing s r u plan steady documents ids) {number : Nat} (hn : 1 ≤ number)
    (hle : number ≤ pagesOf documents.length plan.page.size) {link : String} {v : RelativeUrl}
    (hlink : RelativeUrl.ofText link = .ok v) (hv : AtPage u v plan.page.size number)
    {session : Session σ} (hs : steady session.store) :
    ∃ request response after, ListRequest.ofLink r.accept link = .ok request ∧
      outcome (s.list request) session = (.ok response, after) ∧ steady after.store ∧
      response.dataIds? =
        some ((ids.drop ((number - 1) * plan.page.size)).take plan.page.size) ∧
      (number = pagesOf documents.length plan.page.size → response.link? "next" = none) ∧
      (number < pagesOf documents.length plan.page.size →
        ∃ next w, response.link? "next" = some next ∧ RelativeUrl.ofText next = .ok w ∧
          AtPage u w plan.page.size (number + 1)) := by
  obtain ⟨pages, hpages, hmore⟩ := totalPages_spec h.count plan.page.size_pos
  let page : PageRequest := ⟨plan.page.size, number, plan.page.size_pos, hn⟩
  have hplanned := h.planned_atPage page rfl hv (h.number_readable hle) link
  obtain ⟨response, after, hrun, hafter, hshown, -, hnext⟩ := h.answers page hplanned hlink hpages hs
  refine ⟨_, response, after, ?_, hrun, hafter, hshown, fun hlast => ?_, fun hlt => ?_⟩
  · rw [ListRequest.ofLink, hlink]
    rfl
  · rw [hnext, PageLinks.ofPages, if_neg]
    exact fun hlt => absurd ((hmore number hn).mp hlt) (by omega)
  · obtain ⟨w, hw, hat⟩ := PageLinks.ofText_linkTo hv.writable hv.others page (number + 1)
    refine ⟨_, w, ?_, hw, hat⟩
    rw [hnext, PageLinks.ofPages, if_pos ((hmore number hn).mpr hlt)]
    rfl

/-- From the link to a page, a walk goes through that page and all later ones, and shows what is
left of the list. The induction is on the number of pages after this one. -/
theorem walk_from (h : Listing s r u plan steady documents ids) (left : Nat) {number : Nat}
    (hn : 1 ≤ number) (hleft : number + left = pagesOf documents.length plan.page.size)
    {link : String} {v : RelativeUrl} (hlink : RelativeUrl.ofText link = .ok v)
    (hv : AtPage u v plan.page.size number) {session : Session σ} (hs : steady session.store) :
    ∃ responses, Walk s r.accept session link responses ∧ responses.length = left + 1 ∧
      (responses.mapM Response.dataIds?).map List.flatten =
        some (ids.drop ((number - 1) * plan.page.size)) := by
  induction left generalizing number link v session with
  | zero =>
    obtain ⟨request, response, after, hrequest, hrun, -, hshown, hlast, -⟩ :=
      h.page_response hn (by omega) hlink hv hs
    have hall : (ids.drop ((number - 1) * plan.page.size)).length ≤ plan.page.size := by
      have hpages : documents.length ≤ pagesOf documents.length plan.page.size * plan.page.size :=
        le_pagesOf_mul plan.page.size_pos
      have hmul : number * plan.page.size = (number - 1) * plan.page.size + plan.page.size := by
        rw [← Nat.succ_mul, Nat.succ_eq_add_one, Nat.sub_add_cancel hn]
      rw [← hleft, Nat.add_zero, hmul, h.hasIds.length_eq] at hpages
      rw [List.length_drop]
      omega
    rw [List.take_of_length_le hall] at hshown
    refine ⟨[response], .last hrequest hrun (hlast (by omega)), rfl, ?_⟩
    simp [hshown]
  | succ left ih =>
    obtain ⟨request, response, after, hrequest, hrun, hafter, hshown, -, hmore⟩ :=
      h.page_response hn (by omega) hlink hv hs
    obtain ⟨next, w, hnext, hw, hat⟩ := hmore (by omega)
    obtain ⟨rest, hwalk, hlength, hrest⟩ :=
      ih (Nat.le_add_left 1 number) (by omega) hw hat hafter
    obtain ⟨shown, hshownRest, hflat⟩ := Option.map_eq_some_iff.mp hrest
    have hsplit : (ids.drop ((number - 1) * plan.page.size)).take plan.page.size ++
        ids.drop ((number + 1 - 1) * plan.page.size) =
          ids.drop ((number - 1) * plan.page.size) := by
      have hmul : (number + 1 - 1) * plan.page.size =
          (number - 1) * plan.page.size + plan.page.size := by
        rw [← Nat.succ_mul, Nat.succ_eq_add_one, Nat.sub_add_cancel hn, Nat.add_sub_cancel]
      rw [hmul, ← List.drop_drop, List.take_append_drop]
    refine ⟨response :: rest, .more hrequest hrun hnext hwalk, by rw [List.length_cons, hlength], ?_⟩
    rw [← hsplit, ← hflat]
    simp [List.mapM_cons, hshown, hshownRest]

/-- The walk from the first page of a list shows each document once, in the order of the store, and
takes as many requests as there are pages. -/
theorem walk_shows_all (h : Listing s r u plan steady documents ids) {session after : Session σ}
    {response : Response} (hs : steady session.store)
    (hrun : outcome (s.list r) session = (.ok response, after)) :
    ∃ first responses, response.link? "first" = some first ∧
      Walk s r.accept after first responses ∧
      (∀ others, Walk s r.accept after first others → others = responses) ∧
      responses.length =
        max 1 ((documents.length + plan.page.size - 1) / plan.page.size) ∧
      (responses.mapM Response.dataIds?).map List.flatten = some ids := by
  obtain ⟨pages, hpages, -⟩ := totalPages_spec h.count plan.page.size_pos
  obtain ⟨_, _, hrun', hafter, -, hfirst, -⟩ :=
    h.answers plan.page h.planned h.url hpages hs
  cases hrun.symm.trans hrun'
  obtain ⟨v, hlink, hv⟩ := PageLinks.ofText_linkTo h.writable (fun _ _ _ => rfl) plan.page 1
  have hpos : 1 ≤ pagesOf documents.length plan.page.size := Nat.le_max_left 1 _
  obtain ⟨responses, hwalk, hlength, hshown⟩ :=
    h.walk_from (pagesOf documents.length plan.page.size - 1) le_rfl (by omega) hlink hv hafter
  refine ⟨_, responses, hfirst, hwalk, fun others hothers => hothers.unique hwalk, ?_, ?_⟩
  · rw [hlength, Nat.sub_add_cancel hpos, pagesOf]
  · simpa using hshown

end Listing

def cats : List Document :=
  [[("_id", .string "tom")], [("_id", .string "kit")], [("_id", .string "ada")]]

def catService : Service Memory :=
  ⟨Memory.store, "cat", Options.standard, ⟨[jsonApi], by simp⟩,
    Whitelist.unrestricted, .byCode⟩

def secondPage : ListRequest :=
  ⟨[("page[number]", .string "2"), ("page[size]", .string "2"), ("sort", .string "name")],
    "/cats?page%5Bnumber%5D=2&page%5Bsize%5D=2&sort=name", none⟩

def secondPlan : Plan := ⟨[], none, some [("name", 1)], ⟨2, 2, by decide, by decide⟩⟩

def secondUrl : RelativeUrl :=
  ⟨"/cats", [("page[number]", "2"), ("page[size]", "2"), ("sort", "name")], ""⟩

def threeCats : Session Memory := ⟨Memory.ofDocuments cats [], []⟩

/-- The collection holds the three documents. -/
def HoldsCats (m : Memory) : Prop := m.documents = cats

theorem listing_secondPage :
    Listing catService secondPage secondUrl secondPlan HoldsCats cats ["tom", "kit", "ada"] where
  planned := planned_eq_ok.mpr
    ⟨rfl, rfl, ⟨none, none, some ["name"], secondPlan.page⟩, by decide +kernel, by decide +kernel⟩
  lists := lists_memory cats secondPlan
  hasIds := .cons rfl (.cons rfl (.cons rfl .nil))
  distinct := by decide
  count := by decide
  url := by decide +kernel
  params := rfl
  single := by decide
  pageable := by decide +kernel

theorem walk_shows_all_secondPage :
    Listing catService secondPage secondUrl secondPlan HoldsCats cats ["tom", "kit", "ada"] ∧
    HoldsCats threeCats.store ∧
    ∃ response after first responses,
      outcome (catService.list secondPage) threeCats = (.ok response, after) ∧
      response.link? "first" = some first ∧ Walk catService none after first responses ∧
      (∀ others, Walk catService none after first others → others = responses) ∧
      responses.length = 2 ∧
      (responses.mapM Response.dataIds?).map List.flatten = some ["tom", "kit", "ada"] := by
  have hpages : totalPages cats.length secondPlan.page.size = .ok 2 := by decide +kernel
  have hholds : HoldsCats threeCats.store := rfl
  obtain ⟨response, after, hrun, -⟩ := listing_secondPage.answers secondPlan.page
    listing_secondPage.planned listing_secondPage.url hpages hholds
  obtain ⟨first, responses, hfirst, hwalk, hunique, hlength, hshown⟩ :=
    Listing.walk_shows_all listing_secondPage hholds hrun
  exact ⟨listing_secondPage, hholds, response, after, first, responses, hrun, hfirst, hwalk, hunique,
    hlength, hshown⟩

end DocumentApi.Service
