import DocumentApi.Proofs.Paging.Query
import DocumentApi.Proofs.Service.List
import DocumentApi.Proofs.Store.Memory
import DocumentApi.Representation.JsonApi

/-!
No list request asks for a whole collection. Whatever its parameters say, a call for documents asks
for one page of them, of a size between one and the greatest that the resource grants; the response
shows that page and no other. Main statement: `list_finds_page`.
-/

set_option autoImplicit false

namespace DocumentApi

theorem QuerySettings.size_le_of_page {settings : QuerySettings} {params : DeepObject.Pairs}
    {page : PageRequest} (h : settings.page params = .ok page) :
    ∀ max ∈ settings.limits.max, (page.size : Int) ≤ max := by
  obtain ⟨found, -, hclamped⟩ := Answer.bind_eq_ok.mp h
  exact PageRequest.size_le_of_clamped hclamped

namespace Service

variable {σ : Type}

/-- A page that is planned is no longer than the resource grants. -/
theorem size_le_of_planned {s : Service σ} {r : ListRequest} {plan : Plan}
    {representation : Representation} (h : s.planned r = .ok (plan, representation)) :
    ∀ max ∈ s.options.limits.max, (plan.page.size : Int) ≤ max :=
  QuerySettings.size_le_of_page (parts_of_planned h).2

/-- The body of a response is what the renderer of the negotiated representation makes of a page. -/
def ShowsPage (s : Service σ) (r : ListRequest) (page : PageRequest) (response : Response) : Prop :=
  ∃ representation render count documents,
    (s.registry.negotiate .renderPage (.ofString? r.accept)).1 = .ok representation ∧
    s.registry.renderer .renderPage representation.contentType = .ok render ∧
    render ⟨s.resourceType, r.url, count, page, documents⟩ = .ok response.body

theorem showsPage_of_listed {s : Service σ} {r : ListRequest} {plan : Plan}
    {representation : Representation} {documents : List Document} {count : Int}
    {response : Response} (hplanned : s.planned r = .ok (plan, representation))
    (h : s.listed r plan representation documents count = .ok response) :
    s.ShowsPage r plan.page response := by
  obtain ⟨-, hnegotiated, -⟩ := planned_eq_ok.mp hplanned
  obtain ⟨found, -, h⟩ := Answer.bind_eq_ok.mp h
  obtain ⟨render, hrender, h⟩ := Answer.bind_eq_ok.mp h
  obtain ⟨body, hbody, h⟩ := Answer.bind_eq_ok.mp h
  cases h
  exact ⟨representation, render, count, found, hnegotiated, hrender, hbody⟩

/-- A list request asks for documents only as it was planned. -/
theorem ListRun.finds {c : Collection σ} {calls : σ → List Call} (hc : c.Notes calls)
    {codec : IdCodec} {s : Service σ} (hs : s.store = c.store codec) {r : ListRequest}
    {store after : σ} {answer : Answer Response} (h : ListRun s r store answer after) :
    ∃ made, calls after = calls store ++ made ∧ ∀ call ∈ made, call.kind = .find →
      ∃ plan representation, s.planned r = .ok (plan, representation) ∧
        call = Collection.findCall plan.request := by
  rcases h.calls hc hs with hnone | ⟨plan, representation, hplanned, hcalls | hcalls⟩
  · refine ⟨[], hnone.trans (List.append_nil _).symm, ?_⟩
    intro call hcall
    cases hcall
  · refine ⟨_, hcalls, ?_⟩
    intro call hcall _
    exact ⟨plan, representation, hplanned, List.mem_singleton.mp hcall⟩
  · refine ⟨_, hcalls, ?_⟩
    intro call hcall hkind
    rcases List.mem_cons.mp hcall with hfirst | hcount
    · exact ⟨plan, representation, hplanned, hfirst⟩
    · rw [List.mem_singleton.mp hcount] at hkind
      cases hkind

/-- Every call for documents that a list request makes of a collection asks for a number of them
that is at least one and at most what the resource grants, after as many as are on the pages before
the one that the response shows. -/
theorem list_finds_page {c : Collection σ} {calls : σ → List Call} (hc : c.Notes calls)
    {codec : IdCodec} {s : Service σ} (hs : s.store = c.store codec) (r : ListRequest)
    (session : Session σ) :
    ∃ made, calls (outcome (s.list r) session).2.store = calls session.store ++ made ∧
      ∀ query fields skip limit sort, Call.find query fields skip limit sort ∈ made →
        1 ≤ limit ∧ (∀ max ∈ s.options.limits.max, (limit : Int) ≤ max) ∧
        ∃ n, 1 ≤ n ∧ skip = (n - 1) * limit ∧
          ∀ response, (outcome (s.list r) session).1 = .ok response →
            ∃ page : PageRequest, page.size = limit ∧ page.current = n ∧
              s.ShowsPage r page response := by
  have hrun : ListRun s r session.store (outcome (s.list r) session).1
      (outcome (s.list r) session).2.store := ends_list s r session.store session.log
  obtain ⟨made, happended, hfinds⟩ := hrun.finds hc hs
  refine ⟨made, happended, ?_⟩
  intro query fields skip limit sort hcall
  obtain ⟨plan, representation, hplanned, hfind⟩ := hfinds _ hcall rfl
  cases hfind
  refine ⟨plan.page.size_pos, size_le_of_planned hplanned, plan.page.current,
    plan.page.current_pos, rfl, ?_⟩
  intro response hok
  obtain ⟨shown, _, documents, found, count, hshown, -, -, hlisted⟩ := hrun.of_ok hok
  cases hplanned.symm.trans hshown
  exact ⟨plan.page, rfl, rfl, showsPage_of_listed hplanned hlisted⟩

def sparing : PageLimits := ⟨2, some 3⟩

theorem sparing_valid : sparing.Valid := by
  refine ⟨by decide, ?_⟩
  intro max hmax
  obtain rfl : 3 = max := Option.some.inj hmax
  decide

theorem nodup_jsonApi : ([Representation.jsonApi].map Representation.key).Nodup :=
  List.pairwise_singleton _ _

def sparingCats : Service Memory :=
  ⟨Memory.store, "cat",
    { Options.standard with limits := sparing, limits_valid := sparing_valid },
    ⟨[Representation.jsonApi], nodup_jsonApi⟩, .unrestricted, .byCode⟩

/-- More than is granted, in digits of another script, on a page with a sign and blanks. -/
def greedy : ListRequest :=
  ⟨[("page[size]", .string "٩"), ("page[number]", .string " +2 ")], "/cats", none⟩

def fourCats : Session Memory :=
  ⟨Memory.ofDocuments [[("_id", .int 1)], [("_id", .int 2)], [("_id", .int 3)],
    [("_id", .int 4)]] [], []⟩

theorem list_finds_page_greedy :
    sparingCats.store = Memory.store ∧
    (outcome (sparingCats.list greedy) fourCats).2.store.calls =
      [.find [] none 3 3 none, .count []] ∧
    (∀ max ∈ sparing.max, ((3 : Nat) : Int) ≤ max) ∧
    ∃ response, (outcome (sparingCats.list greedy) fourCats).1 = .ok response ∧
      ∃ page : PageRequest, page.size = 3 ∧ page.current = 2 ∧
        sparingCats.ShowsPage greedy page response := by
  have hcalls : (outcome (sparingCats.list greedy) fourCats).2.store.calls =
      [.find [] none 3 3 none, .count []] := by
    decide +kernel
  have hgiven : (outcome (sparingCats.list greedy) fourCats).1.toBool = true := by
    decide +kernel
  obtain ⟨made, happended, hfinds⟩ := list_finds_page (Memory.notes Disturbance.none)
    (s := sparingCats) rfl greedy fourCats
  rw [hcalls] at happended
  cases happended
  obtain ⟨-, hgranted, n, -, hskip, hshows⟩ := hfinds [] none 3 3 none List.mem_cons_self
  obtain rfl : n = 2 := by omega
  cases hanswer : (outcome (sparingCats.list greedy) fourCats).1 with
  | error failure =>
    rw [hanswer] at hgiven
    cases hgiven
  | ok response => exact ⟨rfl, hcalls, hgranted, response, rfl, hshows response hanswer⟩

end Service

end DocumentApi
