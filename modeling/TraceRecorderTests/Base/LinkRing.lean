import Mathlib.Data.List.Chain
import Mathlib.Data.List.Nodup

/-!
# Circular doubly linked lists

A ring is a head node and the nodes reached from it through the `next` links,
back to the head; every link is answered by a `prev` link. The rules here read
the neighbours of a node off the list of nodes, say which two pairs of links an
insertion before the head and a removal write, and that a ring depends on the
links of its own nodes only.
-/

namespace TraceRecorderTests.Base

variable {A : Type*}

/-- The two link fields of every node; `none` where there is no node. -/
structure Links (A : Type*) where
  next : A → Option A
  prev : A → Option A

/-- `a` and `b` are neighbours: each points at the other. -/
def Linked (l : Links A) (a b : A) : Prop :=
  l.next a = some b ∧ l.prev b = some a

/-- The ring through `head` visits the nodes `xs` in this order. -/
structure LinkRing (l : Links A) (head : A) (xs : List A) : Prop where
  nodup : (head :: xs).Nodup
  chain : (head :: (xs ++ [head])).IsChain (Linked l)

/-! ## Chains of links -/

/-- A chain reads `next` of all its nodes but the last and `prev` of all but the
first. -/
theorem chain_transport {l l' : Links A} {xs : List A} (h : xs.IsChain (Linked l))
    (hnext : ∀ a ∈ xs.dropLast, l'.next a = l.next a)
    (hprev : ∀ b ∈ xs.tail, l'.prev b = l.prev b) : xs.IsChain (Linked l') := by
  induction xs with
  | nil => exact .nil
  | cons a rest ih =>
      cases rest with
      | nil => exact .singleton a
      | cons b rest =>
          rw [List.isChain_cons_cons] at h ⊢
          obtain ⟨⟨hab, hba⟩, hrest⟩ := h
          refine ⟨⟨?_, ?_⟩, ih hrest ?_ ?_⟩
          · rw [hnext a (by simp), hab]
          · rw [hprev b (by simp), hba]
          · intro c hc
            exact hnext c (by simp only [List.dropLast_cons_cons]; exact List.mem_cons_of_mem a hc)
          · intro c hc
            exact hprev c (List.mem_cons_of_mem b hc)

/-- The two parts of a chain around the place between `x` and `z`, in links that
agree with the old ones away from that place. -/
theorem chain_around {l l' : Links A} {pre post : List A} {x z : A}
    (hpre : (pre ++ [x]).IsChain (Linked l)) (hpost : (z :: post).IsChain (Linked l))
    (hfrom : (pre ++ x :: z :: post).dropLast.Nodup) (hto : (pre ++ x :: z :: post).tail.Nodup)
    (hnext : ∀ a ∈ (pre ++ x :: z :: post).dropLast, a ≠ x → l'.next a = l.next a)
    (hprev : ∀ b ∈ (pre ++ x :: z :: post).tail, b ≠ z → l'.prev b = l.prev b) :
    (pre ++ [x]).IsChain (Linked l') ∧ (z :: post).IsChain (Linked l') := by
  have hdrop : (pre ++ x :: z :: post).dropLast = pre ++ x :: (z :: post).dropLast := by
    rw [List.dropLast_append_of_ne_nil (by simp), List.dropLast_cons_cons]
  have htail : (pre ++ x :: z :: post).tail = (pre ++ [x]).tail ++ z :: post := by
    cases pre with
    | nil => rfl
    | cons a pre => simp
  rw [hdrop] at hfrom hnext
  rw [htail] at hto hprev
  have hx := (List.nodup_middle.mp hfrom).notMem
  have hz := (List.nodup_middle.mp hto).notMem
  constructor
  · refine chain_transport hpre ?_ ?_
    · intro a ha
      rw [List.dropLast_concat] at ha
      refine hnext a (List.mem_append_left _ ha) ?_
      rintro rfl
      exact hx (List.mem_append_left _ ha)
    · intro b hb
      refine hprev b (List.mem_append_left _ hb) ?_
      rintro rfl
      exact hz (List.mem_append_left _ hb)
  · refine chain_transport hpost ?_ ?_
    · intro a ha
      refine hnext a (List.mem_append_right _ (List.mem_cons_of_mem _ ha)) ?_
      rintro rfl
      exact hx (List.mem_append_right _ ha)
    · intro b hb
      refine hprev b (List.mem_append_right _ (List.mem_cons_of_mem _ hb)) ?_
      rintro rfl
      exact hz (List.mem_append_right _ hb)

/-! ## Neighbours -/

namespace LinkRing

variable {l l' : Links A} {head : A} {xs : List A}

theorem head_notMem (h : LinkRing l head xs) : head ∉ xs := h.nodup.notMem

/-- An empty ring: the head is its own neighbour. -/
theorem nil_iff : LinkRing l head [] ↔ l.next head = some head ∧ l.prev head = some head := by
  constructor
  · intro h
    exact (List.isChain_cons_cons.mp h.chain).1
  · intro h
    exact ⟨List.nodup_singleton head, .cons_cons h (.singleton head)⟩

/-- The neighbours of a node that stands between `ys` and `zs`. -/
theorem linked_of_split {ys zs : List A} {x : A} (h : LinkRing l head (ys ++ x :: zs)) :
    Linked l (ys.getLastD head) x ∧ Linked l x (zs.headD head) := by
  have hchain := h.chain
  have hsplit : head :: (ys ++ x :: zs ++ [head]) = (head :: ys) ++ x :: (zs ++ [head]) := by
    simp
  rw [hsplit, List.isChain_split] at hchain
  obtain ⟨hleft, hright⟩ := hchain
  constructor
  · rcases List.eq_nil_or_concat' ys with rfl | ⟨ys', y, rfl⟩
    · exact (List.isChain_cons_cons.mp hleft).1
    · rw [List.getLastD_concat]
      have hlast : (head :: (ys' ++ [y])) ++ [x] = (head :: ys') ++ y :: x :: [] := by simp
      rw [hlast, List.isChain_append_cons_cons] at hleft
      exact hleft.2.1
  · cases zs with
    | nil => exact (List.isChain_cons_cons.mp hright).1
    | cons z zs => exact (List.isChain_cons_cons.mp hright).1

/-- The node after the head. -/
theorem next_head (h : LinkRing l head xs) : l.next head = some (xs.headD head) := by
  cases xs with
  | nil => exact (nil_iff.mp h).1
  | cons x xs => exact (linked_of_split (show LinkRing l head ([] ++ x :: xs) from h)).1.1

/-- The node before the head. -/
theorem prev_head (h : LinkRing l head xs) : l.prev head = some (xs.getLastD head) := by
  rcases List.eq_nil_or_concat' xs with rfl | ⟨ys, y, rfl⟩
  · exact (nil_iff.mp h).2
  · rw [List.getLastD_concat]
    exact (linked_of_split h).2.2

/-! ## Changing a ring -/

/-- A ring depends on the links of its own nodes only. -/
theorem frame (h : LinkRing l head xs) (hnext : ∀ a ∈ head :: xs, l'.next a = l.next a)
    (hprev : ∀ a ∈ head :: xs, l'.prev a = l.prev a) : LinkRing l' head xs := by
  refine ⟨h.nodup, chain_transport h.chain ?_ ?_⟩
  · intro a ha
    have hdrop : (head :: (xs ++ [head])).dropLast = head :: xs := by
      rw [← List.cons_append, List.dropLast_concat]
    exact hnext a (hdrop ▸ ha)
  · intro a ha
    refine hprev a ?_
    simpa [or_comm] using ha

/-- The list of a ring cut at the place before the node that follows `ys`. -/
private theorem exists_cut (head : A) (ys zs : List A) :
    ∃ pre post, head :: ys = pre ++ [ys.getLastD head] ∧ zs ++ [head] = zs.headD head :: post := by
  have hpre : ∃ pre, head :: ys = pre ++ [ys.getLastD head] := by
    rcases List.eq_nil_or_concat' ys with rfl | ⟨ys', y, rfl⟩
    · exact ⟨[], rfl⟩
    · exact ⟨head :: ys', by simp⟩
  have hpost : ∃ post, zs ++ [head] = zs.headD head :: post := by
    cases zs with
    | nil => exact ⟨[], rfl⟩
    | cons z zs => exact ⟨zs ++ [head], rfl⟩
  obtain ⟨pre, hpre⟩ := hpre
  obtain ⟨post, hpost⟩ := hpost
  exact ⟨pre, post, hpre, hpost⟩

/-- Both parts of a ring around a place, in links that were written there only. -/
private theorem around {ys zs pre post : List A} (hnodup : (head :: (ys ++ zs)).Nodup)
    (hpre : head :: ys = pre ++ [ys.getLastD head])
    (hpost : zs ++ [head] = zs.headD head :: post)
    (hbefore : (head :: ys).IsChain (Linked l)) (hafter : (zs ++ [head]).IsChain (Linked l))
    (hnext : ∀ a ∈ head :: (ys ++ zs), a ≠ ys.getLastD head → l'.next a = l.next a)
    (hprev : ∀ a ∈ head :: (ys ++ zs), a ≠ zs.headD head → l'.prev a = l.prev a) :
    (pre ++ [ys.getLastD head]).IsChain (Linked l') ∧
      (zs.headD head :: post).IsChain (Linked l') := by
  have hfull : pre ++ ys.getLastD head :: zs.headD head :: post =
      head :: (ys ++ zs ++ [head]) := by
    calc pre ++ ys.getLastD head :: zs.headD head :: post
        = (pre ++ [ys.getLastD head]) ++ zs.headD head :: post := by simp
      _ = head :: (ys ++ zs ++ [head]) := by rw [← hpre, ← hpost]; simp
  have hdrop : (pre ++ ys.getLastD head :: zs.headD head :: post).dropLast =
      head :: (ys ++ zs) := by
    rw [hfull, ← List.cons_append, List.dropLast_concat]
  have htail : (pre ++ ys.getLastD head :: zs.headD head :: post).tail = ys ++ zs ++ [head] := by
    rw [hfull, List.tail_cons]
  refine chain_around (hpre ▸ hbefore) (hpost ▸ hafter) ?_ ?_ ?_ ?_
  · rw [hdrop]
    exact hnodup
  · rw [htail]
    exact List.nodup_append_comm.mp hnodup
  · rw [hdrop]
    exact hnext
  · rw [htail]
    intro b hb
    rw [List.mem_append, List.mem_singleton] at hb
    exact hprev b (List.mem_cons.mpr hb.symm)

/-- Link `n` in before the head: four links are written, the others stay. -/
theorem concat {n : A} (h : LinkRing l head xs) (hn : n ∉ head :: xs)
    (hlast : Linked l' (xs.getLastD head) n) (hhead : Linked l' n head)
    (hnext : ∀ a ∈ head :: xs, a ≠ xs.getLastD head → l'.next a = l.next a)
    (hprev : ∀ a ∈ head :: xs, a ≠ head → l'.prev a = l.prev a) :
    LinkRing l' head (xs ++ [n]) := by
  have hnodup : (head :: (xs ++ [n])).Nodup := by
    rw [← List.cons_append]
    exact List.nodup_append_comm.mp (List.nodup_cons.mpr ⟨hn, h.nodup⟩)
  obtain ⟨pre, post, hpre, hpost⟩ := exists_cut head xs []
  have hchain := h.chain
  rw [← List.cons_append] at hchain
  obtain ⟨hbefore, -⟩ := around (show (head :: (xs ++ [])).Nodup by simpa using h.nodup) hpre hpost
    hchain.left_of_append (.singleton head) (by simpa using hnext) (by simpa using hprev)
  have hnew : head :: (xs ++ [n] ++ [head]) = pre ++ xs.getLastD head :: n :: [head] := by
    rw [List.append_assoc, ← List.cons_append, hpre, List.append_assoc]
    rfl
  refine ⟨hnodup, ?_⟩
  rw [hnew, List.isChain_append_cons_cons]
  exact ⟨hbefore, hlast, .cons_cons hhead (.singleton head)⟩

/-- Unlink a node: its two neighbours are linked to each other, the other links
stay. -/
theorem unlink {ys zs : List A} {x : A} (h : LinkRing l head (ys ++ x :: zs))
    (hlink : Linked l' (ys.getLastD head) (zs.headD head))
    (hnext : ∀ a ∈ head :: (ys ++ zs), a ≠ ys.getLastD head → l'.next a = l.next a)
    (hprev : ∀ a ∈ head :: (ys ++ zs), a ≠ zs.headD head → l'.prev a = l.prev a) :
    LinkRing l' head (ys ++ zs) := by
  have hsub : (head :: (ys ++ zs)).Sublist (head :: (ys ++ x :: zs)) :=
    ((List.sublist_cons_self x zs).append_left ys).cons_cons head
  have hnodup := h.nodup.sublist hsub
  obtain ⟨pre, post, hpre, hpost⟩ := exists_cut head ys zs
  have hchain := h.chain
  have hold : head :: (ys ++ x :: zs ++ [head]) = (head :: ys) ++ x :: (zs ++ [head]) := by simp
  rw [hold] at hchain
  obtain ⟨hbefore, hafter⟩ := around hnodup hpre hpost hchain.left_of_append
    hchain.right_of_append.of_cons hnext hprev
  have hnew : head :: (ys ++ zs ++ [head]) =
      pre ++ ys.getLastD head :: zs.headD head :: post := by
    calc head :: (ys ++ zs ++ [head]) = (head :: ys) ++ (zs ++ [head]) := by simp
      _ = pre ++ ys.getLastD head :: zs.headD head :: post := by
          rw [hpre, hpost, List.append_assoc]
          rfl
  refine ⟨hnodup, ?_⟩
  rw [hnew, List.isChain_append_cons_cons]
  exact ⟨hbefore, hlink, hafter⟩

end LinkRing

end TraceRecorderTests.Base
