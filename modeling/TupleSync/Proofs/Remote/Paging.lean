import TupleSync.Proofs.Remote.Conversation
import TupleSync.Proofs.Remote.Replies
import TupleSync.Proofs.Remote.Requests
import TupleSync.Proofs.Remote.Transcript

/-!
# How the client looks up a pattern

**A listing is followed page by page, and what is known of it is what the pages show.** The requests for
one pattern are all narrowed alike, and each of them has the token of the page before it. There is an
answer if a page without a token is reached, and it has what all the pages have; a reply that shows no page
is the end, and then there is no answer but its fault.
-/

set_option autoImplicit false

namespace TupleSync

open Remote RemoteStore

namespace Remote

/-- From the token on pages are asked for one after the other, to the end or to a reply that shows none. -/
inductive Paged (s : RemoteStore) (p : Tuple) :
    String → List Exchange → Except StoreError (List TupleKey) → Prop where
  | broken {token : String} {reply : Reply} (hnone : reply.tuples? = none) :
      Paged s p token [(s.pageRequest p token, reply)] (.error reply.fault)
  | last {token : String} {reply : Reply} {page : Page TupleKey}
      (hshown : reply.tuples? = some page) (hnext : page.next = "") :
      Paged s p token [(s.pageRequest p token, reply)] (.ok page.items)
  | next {token : String} {reply : Reply} {page : Page TupleKey} {xs : List Exchange}
      {r : Except StoreError (List TupleKey)}
      (hshown : reply.tuples? = some page) (hnext : page.next ≠ "")
      (hrest : Paged s p page.next xs r) :
      Paged s p token ((s.pageRequest p token, reply) :: xs) (r.map (page.items ++ ·))

variable {s : RemoteStore} {p : Tuple} {token : String} {w : Wire}

theorem Paged.requests {xs : List Exchange} {r : Except StoreError (List TupleKey)}
    (h : Paged s p token xs r) : ∀ x ∈ xs, ∃ token, x.1 = s.pageRequest p token := by
  induction h with
  | broken => exact List.forall_mem_singleton.2 ⟨_, rfl⟩
  | last => exact List.forall_mem_singleton.2 ⟨_, rfl⟩
  | next _ _ _ ih => exact List.forall_mem_cons.2 ⟨⟨_, rfl⟩, ih⟩

theorem Listing.complete_prepend {α : Type} (items : List α) (l : Listing α) :
    ({ l with items := items ++ l.items } : Listing α).complete = l.complete.map (items ++ ·) := by
  obtain ⟨more, _ | e⟩ := l <;> rfl

/-- The listing of the pattern from this page on. -/
def pages (s : RemoteStore) (p : Tuple) (token : String) (w : Wire) : Listing TupleKey × Wire :=
  follow tuplesCodec.read (s.pageRequest p) (fun _ => false) token w.replies w

theorem paged_of_none (hnone : w.next.tuples? = none) :
    ∃ xs, w.Heard (pages s p token w).2 xs ∧ Paged s p token xs (pages s p token w).1.complete := by
  rw [pages, Wire.follow_eq, read_tuplesCodec, hnone]
  exact ⟨_, (Wire.Heard.nil w).hear _, .broken hnone⟩

/-- **Pages are followed as far as they go.** The induction is on the replies that are left; once there is
none, no page is shown. -/
theorem exists_paged (s : RemoteStore) (p : Tuple) (token : String) (w : Wire) :
    ∃ xs, w.Heard (pages s p token w).2 xs ∧ Paged s p token xs (pages s p token w).1.complete := by
  induction hreplies : w.replies generalizing w token with
  | nil =>
    have hnone : w.next.tuples? = none := by
      rw [Wire.next, hreplies]
      rfl
    exact paged_of_none hnone
  | cons reply rest ih =>
    rcases hshown : w.next.tuples? with _ | page
    · exact paged_of_none hshown
    have hheard := (Wire.Heard.nil w).hear (s.pageRequest p token)
    rw [pages, Wire.follow_eq, read_tuplesCodec, hshown]
    by_cases hnext : page.next = ""
    · simp only [Reply.answer, hnext, true_or, if_true]
      exact ⟨_, hheard, .last hshown hnext⟩
    · -- the rest of the listing is asked for by the token of this page
      simp only [Reply.answer, hnext, Bool.false_eq_true, or_false, if_false]
      have hrest : (w.hear (s.pageRequest p token)).replies = rest := by
        show w.replies.tail = rest
        rw [hreplies, List.tail_cons]
      obtain ⟨xs, hheard', hpaged⟩ := ih page.next (w.hear (s.pageRequest p token)) hrest
      refine ⟨_, hheard.append hheard', ?_⟩
      rw [Listing.complete_prepend]
      exact .next hshown hnext hpaged

/-! ## From keys to tuples -/

theorem says_filterMapM_tupleOf (ks : List TupleKey) :
    Says s (ks.filterMapM tupleOf) fun xs r => xs = [] ∧ r = .ok (ks.filterMap TupleKey.tuple?) := by
  intro w log
  obtain ⟨log', hrun⟩ := run_filterMapM_tupleOf ks (s.later w log)
  exact ⟨[], _, w, log', hrun, .nil w, rfl, rfl⟩

theorem says_list (s : RemoteStore) (p : Tuple) :
    Says s (RemoteStore.list tuplesCodec.read (s.pageRequest p) fun _ => false) fun xs r =>
      ∃ listing, r = .ok listing ∧ Paged s p "" xs listing.complete := by
  intro w log
  obtain ⟨xs, hheard, hpaged⟩ := exists_paged s p "" w
  exact ⟨xs, _, _, log, rfl, hheard, _, rfl, hpaged⟩

/-- A listing that was not followed to its end is no answer. -/
theorem says_picked (p : Tuple) (listing : Listing TupleKey) :
    Says s (do
      let ts ← listing.items.filterMapM tupleOf
      let _ ← listing.complete
      return ts.filter fun t => p.Matches t) fun xs r =>
        xs = [] ∧ r = listing.complete.map (pick p) := by
  refine (says_filterMapM_tupleOf listing.items).bind_of_silent ?_
  obtain ⟨items, _ | e⟩ := listing
  · exact says_pure (pick p items)
  · exact says_throw e

/-- **What a pattern finds are those of the returned tuples that it matches.** -/
theorem says_matching (s : RemoteStore) (p : Tuple) :
    Says s (matching p) fun xs r => ∃ found, Paged s p "" xs found ∧ r = found.map (pick p) := by
  have hlooked := (says_list s p).bind (says_picked p)
  refine (says_get fun _ _ => hlooked).mono ?_
  rintro xs r (⟨ys, listing, zs, rfl, ⟨_, hlisting, hpaged⟩, rfl, rfl⟩ | ⟨e, -, _, hlisting, -⟩)
  · cases hlisting
    rw [List.append_nil]
    exact ⟨listing.complete, hpaged, rfl⟩
  · cases hlisting

/-! ## Two pages -/

/-- A client that will get two pages, a key that names no tuple on the first one, and then some numbers. -/
def twoPages : RemoteStore where
  storeId := "s"
  modelId := "m"
  pageSize := 2
  chunk := 2
  chunk_pos := by decide
  authorization := none
  wire :=
    ⟨[.ok "[[[[\"b:1\",\"r\",\"g:2\"]],[[\"a\",\"r\",\"g:2\"]]],\"t\"]".toUTF8.toList,
      .ok "[[[[\"a:1\",\"r\",\"g:2\"]],[[\"a:1\",\"q\",\"g:2\"]]]]".toUTF8.toList, .ok [48], .ok [49]],
      .closed, []⟩
  log := []

end Remote

end TupleSync
