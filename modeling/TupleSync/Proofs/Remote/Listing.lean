import TupleSync.Proofs.Remote.Paging

/-!
# How the client lists tuples

**A listing is settled by the replies alone.** As long as a reply is a page with a token the next page is
asked for, by that token and with the same narrowing. The first reply that is anything else is the last
one: a page without a token makes the answer of all pages, and what cannot be read as a page is the
answer itself, whatever came before it.

Keys that name no tuple and tuples that the pattern does not match are passed over one by one. They
neither end the listing nor change what is asked for next.
-/

set_option autoImplicit false

namespace TupleSync

open Remote RemoteStore

namespace Remote

/-! ## What a request says and what a reply shows -/

def Reply.ShowsPage (reply : Reply) (page : Page TupleKey) : Prop := reply.tuples? = some page

/-- The reply shows no page of tuples, and this is what is wrong with it. -/
def Reply.BreaksWith (reply : Reply) (e : StoreError) : Prop := reply.tuples? = none ∧ e = reply.fault

variable {s : RemoteStore} {p : Tuple} {token : String}

theorem said?_narrowing (s : RemoteStore) (p : Tuple) (token : String) :
    (s.pageRequest p token).said? "tuple_key" = (Narrowing.of? p).map Narrowing.body := by
  show Json.member? "tuple_key" (readBody (Narrowing.of? p) s.pageSize token) = _
  cases Narrowing.of? p with
  | none => by_cases h : token = "" <;> simp [readBody, Json.member?, h, List.lookup_cons]
  | some n => simp [readBody, Json.member?]

/-! ## Page after page -/

/-- So many pages have a token, and each of the requests but the last was answered by one of them. -/
structure Followed (s : RemoteStore) (p : Tuple) (reply : Nat → Reply) (token : String)
    (pages : List (Page TupleKey)) (xs : List Exchange) : Prop where
  shown : ∀ i (hi : i < pages.length), (reply i).ShowsPage pages[i]
  more : ∀ page ∈ pages, page.next ≠ ""
  asked : xs.map Prod.fst = (token :: pages.map Page.next).map (s.pageRequest p)

/-- The reply after so many pages is the last one, and this is what comes of them all. -/
inductive Concluded (pages : List (Page TupleKey)) (reply : Reply) :
    Except StoreError (List TupleKey) → Prop where
  | complete {last : Page TupleKey} (hshown : reply.ShowsPage last) (hnext : last.next = "") :
      Concluded pages reply (.ok ((pages ++ [last]).flatMap Page.items))
  | broken {e : StoreError} (hbreaks : reply.BreaksWith e) : Concluded pages reply (.error e)

theorem Followed.nil (reply : Nat → Reply) (token : String) (first : Reply) :
    Followed s p reply token [] [(s.pageRequest p token, first)] where
  shown _ hi := absurd hi (Nat.not_lt_zero _)
  more _ h := absurd h List.not_mem_nil
  asked := rfl

/-- A page with a token stands before the pages that are asked for by it. -/
theorem Followed.cons {reply : Nat → Reply} {page : Page TupleKey} {pages : List (Page TupleKey)}
    {xs : List Exchange} (h : Followed s p (fun i => reply (i + 1)) page.next pages xs)
    (hshown : (reply 0).ShowsPage page) (hnext : page.next ≠ "") (first : Reply) :
    Followed s p reply token (page :: pages) ((s.pageRequest p token, first) :: xs) where
  shown i hi := by
    cases i with
    | zero => exact hshown
    | succ i => exact h.shown i (Nat.lt_of_succ_lt_succ hi)
  more := List.forall_mem_cons.2 ⟨hnext, h.more⟩
  asked := by
    rw [List.map_cons, h.asked]
    rfl

/-- All requests are narrowed to what the pattern leaves, in the same words. -/
theorem Followed.narrowed {reply : Nat → Reply} {pages : List (Page TupleKey)} {xs : List Exchange}
    (h : Followed s p reply token pages xs) :
    ∀ x ∈ xs, x.1.NarrowsTo (Narrowing.of? p) ∧
      x.1.said? "tuple_key" = (Narrowing.of? p).map Narrowing.body := by
  intro x hx
  have hmem : x.1 ∈ xs.map Prod.fst := List.mem_map_of_mem hx
  rw [h.asked, List.mem_map] at hmem
  obtain ⟨token, -, htoken⟩ := hmem
  rw [← htoken]
  exact ⟨s.narrowsTo_readBody _ _ _ _, said?_narrowing s p token⟩

/-- Each request but the first has the token of the page before it. -/
theorem Followed.tokens {reply : Nat → Reply} {pages : List (Page TupleKey)} {xs : List Exchange}
    (h : Followed s p reply "" pages xs) :
    (xs.map fun x => x.1.said? "continuation_token") =
      none :: pages.map fun page => some (.text page.next) := by
  have hsaid : (xs.map fun x => x.1.said? "continuation_token") =
      (xs.map Prod.fst).map fun r => r.said? "continuation_token" := by
    rw [List.map_map]
    rfl
  have hfirst : (s.pageRequest p "").said? "continuation_token" = none :=
    s.continuesFrom_readBody _ _ _ ""
  rw [hsaid, h.asked, List.map_cons, List.map_cons, hfirst, List.map_map, List.map_map]
  refine congrArg _ (List.map_congr_left fun page hpage => ?_)
  have hlater := s.continuesFrom_readBody "read" (Narrowing.of? p) s.pageSize page.next
  rw [Request.ContinuesFrom, if_neg (h.more page hpage)] at hlater
  exact hlater

theorem Concluded.cons {page : Page TupleKey} {pages : List (Page TupleKey)} {reply : Reply}
    {r : Except StoreError (List TupleKey)} (h : Concluded pages reply r) :
    Concluded (page :: pages) reply (r.map (page.items ++ ·)) := by
  cases h with
  | complete hshown hnext => exact .complete hshown hnext
  | broken hbreaks => exact .broken hbreaks

/-- **Pages that are followed one by one are followed as a whole.** -/
theorem Paged.exists_pages {xs : List Exchange} {r : Except StoreError (List TupleKey)}
    {reply : Nat → Reply} (h : Paged s p token xs r)
    (hreply : ∀ i (hi : i < xs.length), xs[i].2 = reply i) :
    ∃ pages, Followed s p reply token pages xs ∧ Concluded pages (reply pages.length) r := by
  induction h generalizing reply with
  | @broken token first hnone =>
    have hfirst : first = reply 0 := hreply 0 Nat.zero_lt_one
    exact ⟨[], .nil _ _ _, hfirst ▸ .broken ⟨hnone, rfl⟩⟩
  | @last token first page hshown hnext =>
    have hfirst : first = reply 0 := hreply 0 Nat.zero_lt_one
    have hitems : ([] ++ [page]).flatMap Page.items = page.items := List.flatMap_singleton ..
    exact ⟨[], .nil _ _ _, hitems ▸ .complete (hfirst ▸ hshown) hnext⟩
  | @next token first page xs r hshown hnext hrest ih =>
    have hfirst : first = reply 0 := hreply 0 (Nat.succ_pos _)
    have hlater : ∀ i (hi : i < xs.length), xs[i].2 = reply (i + 1) :=
      fun i hi => hreply (i + 1) (Nat.succ_lt_succ hi)
    obtain ⟨pages, hfollowed, hconcluded⟩ := ih hlater
    exact ⟨page :: pages, hfollowed.cons (hfirst ▸ hshown) hnext first, hconcluded.cons⟩

end Remote

/-- **A listing leaves no page out and nothing on a page.** For every client at any time of its life,
every pattern and whatever the server replies: all requests are narrowed alike, the first one has no token
and each later one that of the page before it, and the replies are pages with a token up to the last one.
If that is a page too, it has no token, and the answer is what the pattern matches of the tuples that the
returned keys name, page after page. If it is none, the answer is its error and nothing else. -/
theorem RemoteStore.list_reads_to_the_last_page (s : RemoteStore) (p : Tuple) :
    let run := (TupleStore.list p : StoreM RemoteStore (List Tuple)).run s
    let reply := s.wire.reply
    ∃ pages xs, s.wire.Heard run.2.wire xs ∧ Followed s p reply "" pages xs ∧
      (∀ x ∈ xs, x.1.NarrowsTo (Narrowing.of? p) ∧
        x.1.said? "tuple_key" = (Narrowing.of? p).map Narrowing.body) ∧
      (xs.map fun x => x.1.said? "continuation_token") =
        none :: (pages.map fun page => some (.text page.next)) ∧
      ((∃ last, (reply pages.length).ShowsPage last ∧ last.next = "" ∧
          run.1 = .ok ((((pages ++ [last]).flatMap Page.items).filterMap TupleKey.tuple?).filter
            fun t => p.Matches t)) ∨
        ∃ e, (reply pages.length).BreaksWith e ∧ run.1 = .error e) := by
  intro run reply
  obtain ⟨xs, r, w, log, hrun, hheard, found, hpaged, hr⟩ := says_matching s p s.wire s.log
  have hrun' : run = (r, s.later w log) := hrun
  rw [hrun', hr]
  -- the replies are those that the wire held, so the pages are known before anything is asked
  obtain ⟨pages, hfollowed, hconcluded⟩ := hpaged.exists_pages hheard.inOrder
  refine ⟨pages, xs, hheard, hfollowed, hfollowed.narrowed, hfollowed.tokens, ?_⟩
  cases hconcluded with
  | complete hshown hnext => exact Or.inl ⟨_, hshown, hnext, rfl⟩
  | broken hbreaks => exact Or.inr ⟨_, hbreaks, rfl⟩

example : ((TupleStore.list (Tuple.any.withRelation "r") : StoreM RemoteStore (List Tuple)).run twoPages).1 =
    .ok [⟨"b", "1", "r", "g", "2"⟩, ⟨"a", "1", "r", "g", "2"⟩] := by
  cbv

end TupleSync
