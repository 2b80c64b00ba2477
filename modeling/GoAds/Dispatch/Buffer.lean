import Mathlib.Data.List.Nodup
import GoAds.Dispatch.Windows

/-!
# `Dispatch.Buffer` — the parked samples

How a sample comes into `earlySamples` and how it leaves it: it is replaced by a later one of its
handle, taken by a replay of its handle, or discarded at the end of the last open subscribe.
-/

namespace GoAds.Dispatch

open Interleaving List
open Notification (Handle)

section Buffer

variable {early : List Sample} {h : Handle} {s : Sample} {hs : List Handle}

theorem mem_unpark : s ∈ unpark early h ↔ s ∈ early ∧ s.handle ≠ h := by
  unfold unpark
  rw [mem_filter]
  simp

theorem parked_eq_some (hp : parked early h = some s) : s ∈ early ∧ s.handle = h := by
  have hprop := find?_some hp
  exact ⟨mem_of_find?_eq_some hp, by simpa using hprop⟩

theorem parked_eq_none (hp : parked early h = none) (hs : s ∈ early) : s.handle ≠ h := by
  have hall := find?_eq_none.1 hp s hs
  simpa using hall

theorem exists_parked (hs : s ∈ early) : ∃ s', parked early s.handle = some s' := by
  cases hp : parked early s.handle with
  | none => exact absurd rfl (parked_eq_none hp hs)
  | some s' => exact ⟨s', rfl⟩

theorem parked_of_mem (hn : (early.map Sample.handle).Nodup) (hs : s ∈ early) :
    parked early s.handle = some s := by
  obtain ⟨s', hp⟩ := exists_parked hs
  obtain ⟨hmem, hh⟩ := parked_eq_some hp
  rw [inj_on_of_nodup_map hn hmem hs hh] at hp
  exact hp

theorem nodup_unpark (hn : (early.map Sample.handle).Nodup) : ((unpark early h).map Sample.handle).Nodup :=
  hn.sublist (filter_sublist.map _)

theorem mem_takeSamples_left : s ∈ (takeSamples hs early).2 ↔ s ∈ early ∧ s.handle ∉ hs := by
  induction hs generalizing early with
  | nil => simp [takeSamples]
  | cons h hs ih =>
    unfold takeSamples
    split
    · rw [ih, mem_unpark, mem_cons]
      tauto
    next hp =>
    rw [ih, mem_cons]
    constructor
    · rintro ⟨hmem, hnot⟩
      exact ⟨hmem, not_or.2 ⟨parked_eq_none hp hmem, hnot⟩⟩
    · rintro ⟨hmem, hnot⟩
      exact ⟨hmem, (not_or.1 hnot).2⟩

theorem of_mem_takeSamples (hm : s ∈ (takeSamples hs early).1) : s ∈ early ∧ s.handle ∈ hs := by
  induction hs generalizing early with
  | nil => exact absurd hm (by simp [takeSamples])
  | cons h hs ih =>
    unfold takeSamples at hm
    split at hm
    · next s' hp =>
      obtain ⟨hmem, hh⟩ := parked_eq_some hp
      rcases mem_cons.1 hm with rfl | hm
      · exact ⟨hmem, hh ▸ mem_cons_self ..⟩
      · obtain ⟨hmem, hin⟩ := ih hm
        exact ⟨(mem_unpark.1 hmem).1, mem_cons_of_mem _ hin⟩
    · obtain ⟨hmem, hin⟩ := ih hm
      exact ⟨hmem, mem_cons_of_mem _ hin⟩

theorem mem_takeSamples (hn : (early.map Sample.handle).Nodup) (hm : s ∈ early)
    (hin : s.handle ∈ hs) : s ∈ (takeSamples hs early).1 := by
  induction hs generalizing early with
  | nil => exact absurd hin (by simp)
  | cons h hs ih =>
    have hfound := parked_of_mem hn hm
    unfold takeSamples
    by_cases hh : s.handle = h
    · rw [hh] at hfound
      rw [hfound]
      exact mem_cons_self ..
    have hin : s.handle ∈ hs := (mem_cons.1 hin).resolve_left hh
    split
    · exact mem_cons_of_mem _ (ih (nodup_unpark hn) (mem_unpark.2 ⟨hm, hh⟩) hin)
    · exact ih hn hm hin

theorem nodup_takeSamples (hn : (early.map Sample.handle).Nodup) :
    ((takeSamples hs early).2.map Sample.handle).Nodup := by
  induction hs generalizing early with
  | nil => exact hn
  | cons h hs ih =>
    unfold takeSamples
    split
    · exact ih (nodup_unpark hn)
    · exact ih hn

end Buffer

section Effects

variable {sh : Shared} {e : Effect} {s : Sample}

/-- The close that discards is the one of the last open subscribe. -/
theorem Shared.earlySamples_close (t : Nat) : (sh.close t).earlySamples = sh.earlySamples ∨
      ((sh.close t).earlySamples = [] ∧ ∀ t' ∈ sh.tokens, t' = t) := by
  unfold Shared.close
  dsimp only
  split
  · next hempty =>
    refine .inr ⟨rfl, fun t' ht' => ?_⟩
    obtain ⟨x, hx, rfl⟩ := mem_map.1 ht'
    rw [List.isEmpty_iff, filter_eq_nil_iff] at hempty
    simpa using hempty x hx
  · exact .inl rfl

theorem Effect.mem_earlySamples_run (hs : s ∈ sh.earlySamples) :
    s ∈ (e.run sh).earlySamples ∨ (∃ s', e = .park s' ∧ s.handle = s'.handle) ∨
      (∃ bound, e = .take bound ∧ s.handle ∈ bound) ∨ ∃ t, e = .close t ∧ ∀ t' ∈ sh.tokens, t' = t := by
  cases e with
  | park s' =>
    by_cases hh : s.handle = s'.handle
    · exact .inr (.inl ⟨s', rfl, hh⟩)
    · exact .inl (mem_cons_of_mem _ (mem_unpark.2 ⟨hs, hh⟩))
  | take bound =>
    by_cases hb : s.handle ∈ bound
    · exact .inr (.inr (.inl ⟨bound, rfl, hb⟩))
    · exact .inl (mem_takeSamples_left.2 ⟨hs, hb⟩)
  | close t =>
    rcases @Shared.earlySamples_close sh t with heq | ⟨-, hall⟩
    · left
      show s ∈ (sh.close t).earlySamples
      rw [heq]
      exact hs
    · exact .inr (.inr (.inr ⟨t, rfl, hall⟩))
  | _ => exact .inl hs

theorem Effect.of_mem_earlySamples_run (hs : s ∈ (e.run sh).earlySamples) :
    (s ∈ sh.earlySamples ∧ (∀ bound, e = .take bound → s.handle ∉ bound) ∧
        ∀ s', e = .park s' → s.handle ≠ s'.handle) ∨ e = .park s := by
  cases e with
  | park =>
    rcases mem_cons.1 hs with rfl | hs
    · exact .inr rfl
    obtain ⟨hmem, hne⟩ := mem_unpark.1 hs
    refine .inl ⟨hmem, by simp, fun s'' heq => ?_⟩
    cases heq
    exact hne
  | take =>
    obtain ⟨hmem, hnot⟩ := mem_takeSamples_left.1 hs
    refine .inl ⟨hmem, fun b heq => ?_, by simp⟩
    cases heq
    exact hnot
  | close t =>
    have hs : s ∈ (sh.close t).earlySamples := hs
    rcases @Shared.earlySamples_close sh t with heq | ⟨heq, -⟩
    · rw [heq] at hs
      exact .inl ⟨hs, by simp, by simp⟩
    · rw [heq] at hs
      cases hs
  | _ => exact .inl ⟨hs, by simp, by simp⟩

theorem Effect.nodup_earlySamples_run (hn : (sh.earlySamples.map Sample.handle).Nodup) :
    ((e.run sh).earlySamples.map Sample.handle).Nodup := by
  cases e with
  | park s =>
    show ((s :: unpark sh.earlySamples s.handle).map Sample.handle).Nodup
    rw [map_cons, nodup_cons]
    refine ⟨fun hmem => ?_, nodup_unpark hn⟩
    obtain ⟨s', hs', heq⟩ := mem_map.1 hmem
    exact (mem_unpark.1 hs').2 heq
  | take => exact nodup_takeSamples hn
  | close t =>
    show ((sh.close t).earlySamples.map Sample.handle).Nodup
    rcases @Shared.earlySamples_close sh t with heq | ⟨heq, -⟩
    · rw [heq]
      exact hn
    · rw [heq]
      exact nodup_nil
  | _ => exact hn

end Effects

end GoAds.Dispatch
