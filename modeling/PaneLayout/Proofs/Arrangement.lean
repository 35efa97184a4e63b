import PaneLayout.Proofs.Tree.Script
import Mathlib.Data.List.Nodup

set_option autoImplicit false

/-!
# Arrangements: what a script builds

A host that splits panes keeps a binary tree: every split puts a new pane beside the current one,
in the mode of the split. This file plays instruction lists on such trees, and shows that the
script of a layout tree builds the nested arrangement the tree describes.

## Main definitions

* `PaneLayout.Arrangement` — binary trees with panes at the leaves and modes at the inner nodes.
* `PaneLayout.Stage`, `PaneLayout.Stage.play?`, `PaneLayout.Stage.playAll?` — an arrangement with
  a current pane, and what instructions do to it; `none` is a play that got stuck.
* `PaneLayout.Tree.arrangement` — the arrangement that a layout tree describes.

## Main results

* `PaneLayout.Stage.playAll?_graft` — what plays on a part of an arrangement plays on the whole.
* `PaneLayout.Stage.playAll?_script` — the script of a tree with distinct panes, played from its
  home alone, builds its arrangement and ends where it began.
* `PaneLayout.Tree.compile_builds_arrangement` — the same of the compiled instructions.

## Design

Children are split off before any child group is entered, so a group is first arranged with one
leaf per child, and each leaf then grows into the arrangement of its child. Growing is `graft`, and
the induction hypothesis for a child, which speaks of its home alone, is carried into the
arrangement of the whole group by the frame property `playAll?_graft`.
-/

namespace PaneLayout

/-- **Arrangements.** Panes, split in two again and again. -/
inductive Arrangement where
  | leaf (pane : Nat)
  | node (mode : Mode) (first second : Arrangement)
  deriving DecidableEq, Repr

namespace Arrangement

/-- The panes of an arrangement, from left to right. -/
def panes : Arrangement → List Nat
  | .leaf p => [p]
  | .node _ a b => a.panes ++ b.panes

/-- **Grafting.** The leaf of `p` gives way to another arrangement. -/
def graft (p : Nat) (x : Arrangement) : Arrangement → Arrangement
  | .leaf q => if q = p then x else .leaf q
  | .node m a b => .node m (graft p x a) (graft p x b)

/-- **Rows.** The first arrangement beside the row of the others. (No arrangement is a row of none;
a leaf stands in.) -/
def row (mode : Mode) : List Arrangement → Arrangement
  | [] => .leaf 0
  | [a] => a
  | a :: b :: bs => .node mode a (row mode (b :: bs))

/-! ### Grafting -/

/-- Grafting puts the arrangement in the place of the leaf. -/
@[simp] theorem graft_leaf_self (p : Nat) (x : Arrangement) : graft p x (.leaf p) = x := by
  simp [graft]

/-- Grafting at a pane that is not there changes nothing. -/
theorem graft_of_notMem {p : Nat} {x a : Arrangement} (h : p ∉ a.panes) : graft p x a = a := by
  induction a with
  | leaf q => simp only [panes, List.mem_singleton] at h; simp [graft, Ne.symm h]
  | node m a b iha ihb =>
    simp only [panes, List.mem_append, not_or] at h
    simp [graft, iha h.1, ihb h.2]

/-- The panes after a graft: the old ones but for the pane grafted at, and those grafted in. -/
theorem mem_panes_graft {p q : Nat} {x a : Arrangement} :
    q ∈ (graft p x a).panes ↔ (q ∈ a.panes ∧ q ≠ p) ∨ (p ∈ a.panes ∧ q ∈ x.panes) := by
  induction a with
  | leaf r =>
    by_cases hr : r = p
    · subst hr; simp +contextual [graft, panes]
    · simp only [graft, hr, panes, if_false, List.mem_singleton]
      grind
  | node m a b iha ihb =>
    simp only [graft, panes, List.mem_append, iha, ihb, or_and_right]
    exact or_or_or_comm

/-- Grafting into what was grafted in, if the inner pane stands nowhere else. -/
theorem graft_graft {p r : Nat} {x y a : Arrangement} (h : p ∈ a.panes → p = r) :
    graft p y (graft r x a) = graft r (graft p y x) a := by
  induction a with
  | leaf q =>
    by_cases hq : q = r
    · subst hq; simp
    · have hqp : q ≠ p := by
        rintro rfl
        exact hq (h (by simp [panes]))
      simp [graft, hq, hqp]
  | node m a b iha ihb =>
    simp only [panes, List.mem_append] at h
    simp [graft, iha fun ha => h (.inl ha), ihb fun hb => h (.inr hb)]

/-- Grafting a pane at its own leaf changes nothing. -/
@[simp] theorem graft_leaf_leaf (p : Nat) (a : Arrangement) : graft p (.leaf p) a = a := by
  induction a with
  | leaf q => by_cases hq : q = p <;> simp [graft, hq]
  | node m a b iha ihb => simp [graft, iha, ihb]

/-- Grafting into a row is grafting into each of its arrangements. -/
theorem graft_row (p : Nat) (x : Arrangement) (mode : Mode) {as : List Arrangement}
    (has : as ≠ []) : graft p x (row mode as) = row mode (as.map (graft p x)) := by
  induction as with
  | nil => exact absurd rfl has
  | cons a as ih =>
    cases as with
    | nil => rfl
    | cons b bs => simpa [row, graft] using ih (by simp)

/-- The panes of a row, arrangement by arrangement. -/
theorem panes_row (mode : Mode) {as : List Arrangement} (has : as ≠ []) :
    (row mode as).panes = as.flatMap panes := by
  induction as with
  | nil => exact absurd rfl has
  | cons a as ih =>
    cases as with
    | nil => simp [row]
    | cons b bs => simpa [row, panes] using ih (by simp)

end Arrangement

/-! ## Playing instructions -/

/-- **Stages.** An arrangement, and the pane that the next split will divide. -/
structure Stage where
  arrangement : Arrangement
  current : Nat
  deriving DecidableEq, Repr

namespace Stage

open Arrangement

/-- **Playing an instruction.** A jump needs its pane to be there; a split divides the current pane
and needs its own pane to be new; a command needs its pane to be current. -/
def play? (st : Stage) : Instruction → Option Stage
  | .jump p => if p ∈ st.arrangement.panes then some ⟨st.arrangement, p⟩ else none
  | .split m p =>
    if st.current ∈ st.arrangement.panes ∧ p ∉ st.arrangement.panes then
      some ⟨graft st.current (.node m (.leaf st.current) (.leaf p)) st.arrangement, p⟩
    else none
  | .cmd p => if p = st.current then some st else none

/-- Playing instructions one after the other. -/
def playAll? (st : Stage) (queue : List Instruction) : Option Stage :=
  queue.foldlM play? st

/-- No instructions change nothing. -/
@[simp] theorem playAll?_nil (st : Stage) : st.playAll? [] = some st := rfl

/-- The first instruction is played first. -/
theorem playAll?_cons (st : Stage) (i : Instruction) (queue : List Instruction) :
    st.playAll? (i :: queue) = (st.play? i).bind (playAll? · queue) := rfl

/-- Instruction lists in a row are played in a row. -/
theorem playAll?_append (st : Stage) (q₁ q₂ : List Instruction) :
    st.playAll? (q₁ ++ q₂) = (st.playAll? q₁).bind (playAll? · q₂) := by
  simp only [playAll?, List.foldlM_append]
  rfl

/-- No instruction takes a pane away. -/
theorem subset_of_play? {st st' : Stage} {i : Instruction} (h : st.play? i = some st') :
    st.arrangement.panes ⊆ st'.arrangement.panes := by
  cases i with
  | jump p =>
    simp only [play?, Option.ite_none_right_eq_some, Option.some.injEq] at h
    obtain ⟨-, rfl⟩ := h
    exact List.Subset.refl _
  | cmd p =>
    simp only [play?, Option.ite_none_right_eq_some, Option.some.injEq] at h
    obtain ⟨-, rfl⟩ := h
    exact List.Subset.refl _
  | split m p =>
    simp only [play?, Option.ite_none_right_eq_some, Option.some.injEq] at h
    obtain ⟨⟨hc, -⟩, rfl⟩ := h
    intro q hq
    by_cases hqc : q = st.current
    · exact mem_panes_graft.2 (.inr ⟨hc, by simp [panes, hqc]⟩)
    · exact mem_panes_graft.2 (.inl ⟨hq, hqc⟩)

/-- No instructions take a pane away. -/
theorem subset_of_playAll? {st st' : Stage} {queue : List Instruction}
    (h : st.playAll? queue = some st') : st.arrangement.panes ⊆ st'.arrangement.panes := by
  induction queue generalizing st with
  | nil => simp only [playAll?_nil, Option.some.injEq] at h; subst h; exact List.Subset.refl _
  | cons i queue ih =>
    rw [playAll?_cons, Option.bind_eq_some_iff] at h
    obtain ⟨mid, hi, hq⟩ := h
    exact List.Subset.trans (subset_of_play? hi) (ih hq)

/-- One instruction on a part of an arrangement has the same effect on the whole, if no new pane
of the part stands elsewhere in the whole. -/
theorem play?_graft {x y a : Arrangement} {c d h : Nat} {i : Instruction} (ha : h ∈ a.panes)
    (hapart : ∀ p ∈ y.panes, p ∈ a.panes → p = h)
    (hplay : (⟨x, c⟩ : Stage).play? i = some ⟨y, d⟩) :
    (⟨graft h x a, c⟩ : Stage).play? i = some ⟨graft h y a, d⟩ := by
  have hsub : x.panes ⊆ y.panes := subset_of_play? hplay
  have hgrow : ∀ {q}, q ∈ x.panes → q ∈ (graft h x a).panes := fun hq =>
    mem_panes_graft.2 (.inr ⟨ha, hq⟩)
  cases i with
  | jump p =>
    simp only [play?, Option.ite_none_right_eq_some, Option.some.injEq, mk.injEq] at hplay
    obtain ⟨hp, rfl, rfl⟩ := hplay
    simp [play?, hgrow hp]
  | cmd p =>
    simp only [play?, Option.ite_none_right_eq_some, Option.some.injEq, mk.injEq] at hplay
    obtain ⟨rfl, rfl, rfl⟩ := hplay
    simp [play?]
  | split m p =>
    simp only [play?, Option.ite_none_right_eq_some, Option.some.injEq, mk.injEq] at hplay
    obtain ⟨⟨hc, hp⟩, rfl, rfl⟩ := hplay
    -- the new pane is not elsewhere: it would be `h`, which the part has had all along
    have hnew : p ∉ (graft h x a).panes := by
      rw [mem_panes_graft]
      rintro (⟨hpa, hne⟩ | ⟨-, hpx⟩)
      · exact hne (hapart p (mem_panes_graft.2 (.inr ⟨hc, by simp [panes]⟩)) hpa)
      · exact hp hpx
    have hswap := graft_graft (x := x) (y := .node m (.leaf c) (.leaf p)) (a := a)
      (fun hca => hapart c (hsub hc) hca)
    simp only [play?, if_pos (And.intro (hgrow hc) hnew), hswap]

/-- **What plays on a part of an arrangement plays on the whole**, if the panes that come in stand
nowhere else in it.

**Proof sketch.** Induction on the instructions: the part only grows, so the panes of every
intermediate part are among those of the last one, and `play?_graft` applies at each step. -/
theorem playAll?_graft {x y a : Arrangement} {c d h : Nat} {queue : List Instruction}
    (hx : h ∈ x.panes) (ha : h ∈ a.panes) (hapart : ∀ p ∈ y.panes, p ∈ a.panes → p = h)
    (hplay : (⟨x, c⟩ : Stage).playAll? queue = some ⟨y, d⟩) :
    (⟨graft h x a, c⟩ : Stage).playAll? queue = some ⟨graft h y a, d⟩ := by
  induction queue generalizing x c with
  | nil =>
    simp only [playAll?_nil, Option.some.injEq, mk.injEq] at hplay
    obtain ⟨rfl, rfl⟩ := hplay
    rfl
  | cons i queue ih =>
    rw [playAll?_cons, Option.bind_eq_some_iff] at hplay
    obtain ⟨⟨z, e⟩, hi, hrest⟩ := hplay
    have hzy : z.panes ⊆ y.panes := subset_of_playAll? hrest
    have hstep := play?_graft ha (fun p hp hpa => hapart p (hzy hp) hpa) hi
    rw [playAll?_cons, hstep]
    exact ih (subset_of_play? hi hx) hrest

end Stage

/-! ## The arrangement of a layout tree -/

namespace Tree

open Arrangement

mutual

/-- **The arrangement of a tree**: a group is the row of its children, and each of them is arranged
one mode further. -/
def arrangement (mode : Mode) : Tree → Arrangement
  | .pane i => .leaf i
  | .group children => row mode (arrangements mode.next children)

/-- The arrangements of some trees. -/
def arrangements (mode : Mode) : List Tree → List Arrangement
  | [] => []
  | t :: ts => t.arrangement mode :: arrangements mode ts

end

/-- The arrangements of some trees, tree by tree. -/
theorem arrangements_eq_map (mode : Mode) (ts : List Tree) :
    arrangements mode ts = ts.map (arrangement mode) := by
  induction ts with
  | nil => rfl
  | cons t ts ih => rw [arrangements, ih, List.map_cons]

/-- A lone pane is arranged as a leaf. -/
@[simp] theorem arrangement_pane (mode : Mode) (i : Nat) :
    (Tree.pane i).arrangement mode = .leaf i := by
  rw [arrangement]

/-- A group is arranged as a row. -/
theorem arrangement_group (mode : Mode) (children : List Tree) :
    (Tree.group children).arrangement mode = row mode (children.map (arrangement mode.next)) := by
  rw [arrangement, arrangements_eq_map]

/-- The arrangement of a filled tree shows the panes of the tree in reading order. -/
theorem panes_arrangement {t : Tree} (ht : t.Filled) (mode : Mode) :
    (t.arrangement mode).panes = t.panes := by
  induction t using induct generalizing mode with
  | pane i => simp [Arrangement.panes]
  | group children ih =>
    obtain ⟨hne, hall⟩ := (filled_group children).1 ht
    rw [arrangement_group, panes_row mode (by simpa using hne), panes_group, List.flatMap_map]
    exact List.flatMap_congr fun c hc => ih c hc (hall c hc) mode.next

/-- Trees that share no pane have different homes. -/
theorem nodup_homes {ts : List Tree} (hts : ∀ t ∈ ts, t.Filled)
    (hnodup : (ts.flatMap Tree.panes).Nodup) : (ts.map home).Nodup := by
  rw [List.Nodup, List.pairwise_map]
  refine (List.nodup_flatMap.1 hnodup).2.imp_of_mem fun {t u} ht hu hdisj heq => ?_
  exact hdisj (home_mem_panes (hts t ht)) (heq ▸ home_mem_panes (hts u hu))

end Tree

namespace Stage

open Arrangement

/-- **Splitting off siblings** grows the current leaf into the row of the siblings' homes.

**Proof sketch.** Induction on the siblings. The split puts the home of the next one beside the
current leaf, and the rest of the row is grafted at that home. -/
theorem playAll?_arrivals {x : Arrangement} {c : Nat} {ts : List Tree} (mode : Mode)
    (hc : c ∈ x.panes) (hnew : ∀ t ∈ ts, t.home ∉ x.panes) (hnodup : (ts.map Tree.home).Nodup) :
    ∃ d, (⟨x, c⟩ : Stage).playAll? (Tree.arrivals mode ts) =
      some ⟨graft c (row mode (.leaf c :: ts.map (.leaf ·.home))) x, d⟩ := by
  induction ts generalizing x c with
  | nil => exact ⟨c, by simp [Tree.arrivals, row]⟩
  | cons t ts ih =>
    obtain ⟨hhead, htail⟩ := List.nodup_cons.1 hnodup
    have ht : t.home ∉ x.panes := hnew t (by simp)
    have hct : c ≠ t.home := fun h => ht (h ▸ hc)
    set x' := graft c (.node mode (.leaf c) (.leaf t.home)) x with hx'
    have hmem : t.home ∈ x'.panes := mem_panes_graft.2 (.inr ⟨hc, by simp [panes]⟩)
    have hnew' : ∀ u ∈ ts, u.home ∉ x'.panes := by
      intro u hu hux
      have hne : u.home ≠ t.home := fun h => hhead (h ▸ List.mem_map_of_mem hu)
      have hux' := hnew u (by simp [hu])
      rcases mem_panes_graft.1 hux with ⟨hux, -⟩ | ⟨-, hux⟩
      · exact hux' hux
      · simp only [panes, List.mem_append, List.mem_singleton] at hux
        exact hux.elim (fun h => hux' (h ▸ hc)) hne
    obtain ⟨d, hd⟩ := ih hmem hnew' htail
    refine ⟨d, ?_⟩
    have hsplit : (⟨x, c⟩ : Stage).play? (.split mode t.home) = some ⟨x', t.home⟩ := by
      simp [play?, hc, ht, hx']
    have hcmd : (⟨x', t.home⟩ : Stage).play? (.cmd t.home) = some ⟨x', t.home⟩ := by
      simp [play?]
    have hgraft : graft t.home (row mode (.leaf t.home :: ts.map (.leaf ·.home))) x' =
        graft c (row mode (.leaf c :: (t :: ts).map (.leaf ·.home))) x := by
      rw [hx', graft_graft fun h => absurd h ht]
      simp [graft, hct, row]
    rw [show Tree.arrivals mode (t :: ts) =
      .split mode t.home :: .cmd t.home :: Tree.arrivals mode ts from rfl, playAll?_cons, hsplit,
      Option.bind_some, playAll?_cons, hcmd, Option.bind_some, hd, hgraft]

/-- A group half built: the children in `done` are arranged, those in `todo` are still leaves. -/
def underway (mode inner : Mode) (done todo : List Tree) : Arrangement :=
  row mode (done.map (Tree.arrangement inner) ++ todo.map (.leaf ·.home))

/-- The panes of a group half built: all of the arranged children, and the homes of the others. -/
theorem panes_underway {mode inner : Mode} {done todo : List Tree} (hne : done ++ todo ≠ [])
    (hfilled : ∀ t ∈ done, t.Filled) :
    (underway mode inner done todo).panes = done.flatMap Tree.panes ++ todo.map Tree.home := by
  have hdone : done.flatMap (fun d => (d.arrangement inner).panes) = done.flatMap Tree.panes :=
    List.flatMap_congr fun d hd => Tree.panes_arrangement (hfilled d hd) inner
  have htodo : todo.flatMap (fun u => (Arrangement.leaf u.home).panes) = todo.map Tree.home := by
    simp only [panes]
    exact List.map_eq_flatMap.symm
  rw [underway, panes_row mode (by simpa using hne), List.flatMap_append, List.flatMap_map,
    List.flatMap_map, hdone, htodo]

/-- Grafting the arrangement of the next child completes one more child. -/
theorem graft_underway (mode inner : Mode) {t : Tree} {done todo : List Tree}
    (hfilled : ∀ d ∈ done, d.Filled) (hdone : t.home ∉ done.flatMap Tree.panes)
    (htodo : t.home ∉ todo.map Tree.home) :
    graft t.home (t.arrangement inner) (underway mode inner done (t :: todo)) =
      underway mode inner (done ++ [t]) todo := by
  have hkeep : ∀ d ∈ done, (graft t.home (t.arrangement inner) ∘ Tree.arrangement inner) d =
      d.arrangement inner := by
    intro d hd
    refine graft_of_notMem fun h => hdone (List.mem_flatMap.2 ⟨d, hd, ?_⟩)
    rwa [Tree.panes_arrangement (hfilled d hd)] at h
  have hleaf : ∀ u ∈ todo, (graft t.home (t.arrangement inner) ∘ (Arrangement.leaf ·.home)) u =
      .leaf u.home := by
    intro u hu
    refine graft_of_notMem fun h => htodo (List.mem_map.2 ⟨u, hu, ?_⟩)
    exact (List.mem_singleton.1 h).symm
  rw [underway, graft_row _ _ mode (by simp), List.map_append, List.map_map, List.map_cons,
    List.map_cons, List.map_map, graft_leaf_self, List.map_congr_left hkeep,
    List.map_congr_left hleaf]
  simp [underway]

/-- A child of a group shares no pane with the children before and behind it. -/
theorem apart_of_nodup {t : Tree} {done todo : List Tree}
    (hnodup : ((done ++ t :: todo).flatMap Tree.panes).Nodup) {p : Nat} (hp : p ∈ t.panes) :
    p ∉ done.flatMap Tree.panes ∧ p ∉ todo.flatMap Tree.panes := by
  rw [List.flatMap_append, List.flatMap_cons, List.nodup_append, List.nodup_append] at hnodup
  obtain ⟨-, ⟨-, -, hbehind⟩, hbefore⟩ := hnodup
  exact ⟨fun h => hbefore p h p (by simp [hp]) rfl, fun h => hbehind p hp p h rfl⟩

/-- **Entering a child.** What the script of the next child builds from its home alone, it builds
in the half-built group: the panes of the child stand nowhere else there. -/
theorem playAll?_underway (mode : Mode) {inner : Mode} {t : Tree} {done todo : List Tree} (c : Nat)
    (hfilled : ∀ u ∈ done ++ t :: todo, u.Filled)
    (hnodup : ((done ++ t :: todo).flatMap Tree.panes).Nodup)
    (hplay : (⟨.leaf t.home, c⟩ : Stage).playAll? (t.script inner false) =
      some ⟨t.arrangement inner, t.home⟩) :
    ∃ d, (⟨underway mode inner done (t :: todo), c⟩ : Stage).playAll?
        (if t.isGroup then t.script inner false else []) =
      some ⟨underway mode inner (done ++ [t]) todo, d⟩ := by
  have ht : t.Filled := hfilled t (by simp)
  have hhome := Tree.home_mem_panes ht
  have hsub : ∀ {p}, p ∈ todo.map Tree.home → p ∈ todo.flatMap Tree.panes := by
    intro p hp
    obtain ⟨u, hu, rfl⟩ := List.mem_map.1 hp
    exact List.mem_flatMap.2 ⟨u, hu, Tree.home_mem_panes (hfilled u (by simp [hu]))⟩
  have hdone : ∀ d ∈ done, d.Filled := fun d hd => hfilled d (by simp [hd])
  have hgrown := graft_underway mode inner hdone
    (apart_of_nodup hnodup hhome).1 fun h => (apart_of_nodup hnodup hhome).2 (hsub h)
  have hpanes : (underway mode inner done (t :: todo)).panes =
      done.flatMap Tree.panes ++ (t :: todo).map Tree.home := panes_underway (by simp) hdone
  cases t with
  | pane i =>
    rw [Tree.arrangement_pane, Tree.home_pane, graft_leaf_leaf] at hgrown
    exact ⟨c, by rw [hgrown]; rfl⟩
  | group children =>
    have hframe := playAll?_graft (h := (Tree.group children).home)
      (a := underway mode inner done (.group children :: todo)) (by simp [panes])
      (by simp [hpanes]) (fun p hp hpa => ?_) hplay
    · rw [graft_leaf_leaf, hgrown] at hframe
      exact ⟨_, hframe⟩
    · rw [Tree.panes_arrangement ht] at hp
      rw [hpanes, List.mem_append, List.map_cons, List.mem_cons] at hpa
      rcases hpa with hpa | hpa | hpa
      · exact absurd hpa (apart_of_nodup hnodup hp).1
      · exact hpa
      · exact absurd (hsub hpa) (apart_of_nodup hnodup hp).2

/-- **Entering the child groups** one after the other completes the group.

**Proof sketch.** Induction on the children that are left, with `playAll?_underway` for the next. -/
theorem playAll?_scripts {todo : List Tree} (mode inner : Mode) (done : List Tree) (c : Nat)
    (hfilled : ∀ t ∈ done ++ todo, t.Filled) (hnodup : ((done ++ todo).flatMap Tree.panes).Nodup)
    (hplay : ∀ t ∈ todo, ∀ c, (⟨.leaf t.home, c⟩ : Stage).playAll? (t.script inner false) =
      some ⟨t.arrangement inner, t.home⟩) :
    ∃ d, (⟨underway mode inner done todo, c⟩ : Stage).playAll? (Tree.scripts inner todo) =
      some ⟨row mode ((done ++ todo).map (Tree.arrangement inner)), d⟩ := by
  induction todo generalizing done c with
  | nil => exact ⟨c, by simp [Tree.scripts, underway]⟩
  | cons t todo ih =>
    obtain ⟨e, he⟩ := playAll?_underway mode c hfilled hnodup (hplay t (by simp) c)
    have hassoc : done ++ [t] ++ todo = done ++ t :: todo := by simp
    obtain ⟨d, hd⟩ := ih (done ++ [t]) e (by rwa [hassoc]) (by rwa [hassoc])
      fun u hu => hplay u (by simp [hu])
    refine ⟨d, ?_⟩
    rw [Tree.scripts, playAll?_append, he, Option.bind_some, hd, hassoc]

/-- The opening of a group makes the row of the children's homes.

**Proof sketch.** The jump goes to the only pane there is, the command belongs to it, and the other
children are split off one by one (`playAll?_arrivals`). -/
theorem playAll?_opening {children : List Tree} (mode inner : Mode) (isRoot : Bool) (c : Nat)
    (hne : children ≠ []) (hnodup : (children.map Tree.home).Nodup) :
    ∃ d, (⟨.leaf (Tree.group children).home, c⟩ : Stage).playAll?
        (Tree.opening mode isRoot children) = some ⟨underway mode inner [] children, d⟩ := by
  cases children with
  | nil => exact absurd rfl hne
  | cons t ts =>
    obtain ⟨hhead, htail⟩ := List.nodup_cons.1 hnodup
    have hnew : ∀ u ∈ ts, u.home ∉ (Arrangement.leaf t.home).panes := by
      intro u hu hut
      simp only [panes, List.mem_singleton] at hut
      exact hhead (hut ▸ List.mem_map_of_mem hu)
    obtain ⟨d, hd⟩ := playAll?_arrivals mode (x := .leaf t.home) (c := t.home) (by simp [panes])
      hnew htail
    rw [graft_leaf_self] at hd
    refine ⟨d, ?_⟩
    have hjump : (⟨.leaf t.home, c⟩ : Stage).play? (.jump t.home) =
        some ⟨.leaf t.home, t.home⟩ := by
      simp [play?, panes]
    have hcmd : (⟨.leaf t.home, t.home⟩ : Stage).playAll?
        (if isRoot then [.cmd t.home] else []) = some ⟨.leaf t.home, t.home⟩ := by
      cases isRoot <;> simp [playAll?_cons, play?]
    rw [Tree.home_group_cons, Tree.opening, playAll?_cons, hjump, Option.bind_some,
      playAll?_append, hcmd, Option.bind_some, hd]
    rfl

/-- **A script builds the arrangement of its tree.** Played from the home of the tree alone, it
never gets stuck, and it ends at the home.

**Proof sketch.** Induction on the tree. The opening of a group makes the row of the children's
homes (`playAll?_arrivals`), the scripts of the child groups complete the row
(`playAll?_scripts`), and the last jump leads back to the home of the first child. -/
theorem playAll?_script {t : Tree} (ht : t.Filled) (hnodup : t.panes.Nodup) (mode : Mode)
    (isRoot : Bool) (c : Nat) :
    (⟨.leaf t.home, c⟩ : Stage).playAll? (t.script mode isRoot) =
      some ⟨t.arrangement mode, t.home⟩ := by
  induction t using Tree.induct generalizing mode isRoot c with
  | pane i => simp [Tree.script, playAll?_cons, play?, panes]
  | group children ih =>
    obtain ⟨hne, hall⟩ := (Tree.filled_group children).1 ht
    rw [Tree.panes_group] at hnodup
    have hhomes := Tree.nodup_homes hall hnodup
    have hsub := (List.nodup_flatMap.1 hnodup).1
    obtain ⟨d, hopening⟩ := playAll?_opening mode mode.next isRoot c hne hhomes
    obtain ⟨e, hscripts⟩ := playAll?_scripts mode mode.next [] d hall hnodup
      fun t hmem c => ih t hmem (hall t hmem) (hsub t hmem) mode.next false c
    have hhome : (Tree.group children).home ∈ ((Tree.group children).arrangement mode).panes := by
      rw [Tree.panes_arrangement ht]
      exact Tree.home_mem_panes ht
    rw [Tree.script, playAll?_append, playAll?_append, hopening, Option.bind_some, hscripts,
      Option.bind_some, List.nil_append, ← Tree.arrangement_group]
    simp [playAll?_cons, play?, hhome]

end Stage

/-- **Compiled instructions build what they were compiled from.** A tree without empty groups whose
panes are distinct compiles, in every mode and at every level. Its instructions, played from the
leftmost pane alone, never get stuck, end at that pane, and leave the arrangement of the tree.

**Proof sketch.** The instructions are the script of the tree (`Tree.compileAt_eq_script`), and
`Stage.playAll?_script` says what the script does. -/
theorem Tree.compile_builds_arrangement {t : Tree} (ht : t.Filled) (hnodup : t.panes.Nodup)
    (mode : Mode) (isRoot : Bool) :
    ∃ queue home, t.compile mode isRoot = .ok queue ∧ t.representative? = some home ∧
      (⟨.leaf home, home⟩ : Stage).playAll? queue = some ⟨t.arrangement mode, home⟩ :=
  ⟨t.script mode isRoot, t.home, compileAt_eq_script ht mode isRoot [], representative?_eq_home ht,
    Stage.playAll?_script ht hnodup mode isRoot t.home⟩

/-- A group within a group whose panes are not numbered in reading order is built as described. -/
theorem Tree.compile_builds_arrangement_nested :
    let t : Tree := .group [.group [.pane 4, .pane 1, .group [.pane 7]], .pane 0]
    (t.Filled ∧ t.panes.Nodup) ∧ ∃ queue home, t.compile .window true = .ok queue ∧
      t.representative? = some home ∧
      (⟨.leaf home, home⟩ : Stage).playAll? queue = some ⟨t.arrangement .window, home⟩ :=
  ⟨⟨by simp, by decide⟩, compile_builds_arrangement (by simp) (by decide) .window true⟩

example :
    (Tree.group [.group [.pane 4, .pane 1], .pane 0]).arrangement .window =
      .node .window (.node .tab (.leaf 4) (.leaf 1)) (.leaf 0) := by
  decide

end PaneLayout
