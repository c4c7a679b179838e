import Atlax.Library.Run
import Atlax.Model.Rotation

/-!
# The certificate that is served

The watcher compares the certificate file with a fingerprint that it remembers, not with the
certificate that is served. The two belong together when the first fingerprint was taken of the
certificate loaded at boot, and when every pair that is taken over has the fingerprint it was taken
over for. Then a tick during which the files stay as they are, and are a valid pair, ends with the
certificate on disk being served: it is served already, or the fingerprint is another one and the
pair is loaded.

The certificate is read once for the fingerprint and once for the pair, at boot as at a tick. When
the file changes in between, the watcher may remember what is on disk while something else is
served, and then no tick ever loads it.
-/

set_option autoImplicit false

namespace Atlax.Analysis

open Atlax.Model Atlax.Library

variable {φ : Type} {fmt : CertFormat φ} {s s' : Rotation φ} {a : RotationAction}

/-! ## What a step does -/

/-- The relay is loading its certificate. -/
def booting : RotationPc φ → Bool
  | .validate | .loadCert | .loadKey _ | .loadCA => true
  | _ => false

/-- The steps of boot and of the watcher, and what they find in the files. -/
inductive RotationMove (fmt : CertFormat φ) (s : Rotation φ) : RotationAction → Rotation φ → Prop
  | writeCert (f : FileContents) : RotationMove fmt s (.writeCert f) { s with cert := f }
  | writeKey (f : FileContents) : RotationMove fmt s (.writeKey f) { s with key := f }
  | fail {a : RotationAction} (hpc : booting s.pc = true) (err : CertBootError) :
      RotationMove fmt s a { s with pc := .failed err }
  | validated (hpc : s.pc = .validate) : RotationMove fmt s .run { s with pc := .loadCert }
  | readCert (hpc : s.pc = .loadCert) (cert : Bytes) :
      RotationMove fmt s .run { s with pc := .loadKey cert }
  | loaded {cert key : Bytes} (hpc : s.pc = .loadKey cert) (hpair : fmt.keyPair cert key = none) :
      RotationMove fmt s .run { s with currentCert := some (cert, key), pc := .loadCA }
  | loadedCA (hpc : s.pc = .loadCA) : RotationMove fmt s (.loadCA none) { s with pc := .start }
  | unwatched (hpc : s.pc = .start) (err : String) :
      RotationMove fmt s .run { s with pc := .returned (.initialFingerprint err) }
  | watched {cert : Bytes} (hpc : s.pc = .start) (hcert : s.cert = .data cert) :
      RotationMove fmt s .run
        { s with lastFingerprint := some (fmt.fingerprint cert), pc := .wait }
  | tick (hpc : s.pc = .wait) : RotationMove fmt s .tick { s with pc := .check }
  | stop (hpc : s.pc = .wait) : RotationMove fmt s .ctxDone { s with pc := .returned .ctx }
  | unreadable (hpc : s.pc = .check ∨ ∃ fp, s.pc = .reloadCert fp) {err : String}
      (hcert : s.cert = .unreadable err) : RotationMove fmt s .run { s with pc := .wait }
  | unchanged {cert : Bytes} (hpc : s.pc = .check) (hcert : s.cert = .data cert)
      (hlast : s.lastFingerprint = some (fmt.fingerprint cert)) :
      RotationMove fmt s .run { s with pc := .wait }
  | changed {cert : Bytes} (hpc : s.pc = .check) (hcert : s.cert = .data cert)
      (hlast : s.lastFingerprint ≠ some (fmt.fingerprint cert)) :
      RotationMove fmt s .run { s with pc := .reloadCert (fmt.fingerprint cert) }
  | reread {fp : φ} {cert : Bytes} (hpc : s.pc = .reloadCert fp) (hcert : s.cert = .data cert) :
      RotationMove fmt s .run { s with pc := .reloadKey fp cert }
  | misfit {fp : φ} {cert : Bytes} (hpc : s.pc = .reloadKey fp cert)
      (hkey : ∀ key, s.key = .data key → fmt.keyPair cert key ≠ none) :
      RotationMove fmt s .run { s with pc := .wait }
  | fits {fp : φ} {cert key : Bytes} (hpc : s.pc = .reloadKey fp cert) (hkey : s.key = .data key)
      (hpair : fmt.keyPair cert key = none) :
      RotationMove fmt s .run { s with pc := .reload fp cert key }
  | reload {fp : φ} {cert key : Bytes} (hpc : s.pc = .reload fp cert key) :
      RotationMove fmt s .run
        { s with lastFingerprint := some fp, currentCert := some (cert, key), pc := .wait }

theorem runNext_move [DecidableEq φ] (h : s.runNext fmt s.pc = some s') :
    RotationMove fmt s .run s' := by
  have boots (hpc : booting s.pc = true) (err : CertBootError)
      (h : some { s with pc := .failed err } = some s') : RotationMove fmt s .run s' := by
    cases h
    exact .fail hpc err
  cases hpc : s.pc with
  | validate =>
    simp only [hpc, Rotation.runNext] at h
    split at h
    · exact boots (by rw [hpc]; rfl) _ h
    · cases h
      exact .validated hpc
  | loadCert =>
    simp only [hpc, Rotation.runNext] at h
    split at h
    · exact boots (by rw [hpc]; rfl) _ h
    · cases h
      exact .readCert hpc _
  | loadKey cert =>
    simp only [hpc, Rotation.runNext] at h
    split at h
    · exact boots (by rw [hpc]; rfl) _ h
    · split at h
      · exact boots (by rw [hpc]; rfl) _ h
      · next hpair =>
        cases h
        exact .loaded hpc hpair
  | start =>
    simp only [hpc, Rotation.runNext] at h
    split at h <;> cases h
    · exact .unwatched hpc _
    · next hcert => exact .watched hpc hcert
  | check =>
    simp only [hpc, Rotation.runNext] at h
    split at h
    · next hcert =>
      cases h
      exact .unreadable (.inl hpc) hcert
    · next hcert =>
      split at h <;> cases h
      · next hlast => exact .unchanged hpc hcert hlast
      · next hlast => exact .changed hpc hcert hlast
  | reloadCert fp =>
    simp only [hpc, Rotation.runNext] at h
    split at h <;> cases h
    · next hcert => exact .unreadable (.inr ⟨fp, hpc⟩) hcert
    · next hcert => exact .reread hpc hcert
  | reloadKey fp cert =>
    simp only [hpc, Rotation.runNext] at h
    split at h
    · next hkey =>
      cases h
      refine .misfit hpc fun key hdata => ?_
      rw [hkey] at hdata
      cases hdata
    · next key hkey =>
      split at h <;> cases h
      · next err hpair =>
        refine .misfit hpc fun key' hdata => ?_
        rw [hkey] at hdata
        cases hdata
        rw [hpair]
        nofun
      · next hpair => exact .fits hpc hkey hpair
  | reload fp cert key =>
    simp only [hpc, Rotation.runNext] at h
    cases h
    exact .reload hpc
  | loadCA | wait | failed | returned =>
    simp only [hpc, Rotation.runNext] at h
    cases h

theorem rotation_move [DecidableEq φ] (h : s.step fmt a = some s') : RotationMove fmt s a s' := by
  cases a with
  | writeCert f =>
    cases h
    exact .writeCert f
  | writeKey f =>
    cases h
    exact .writeKey f
  | run => exact runNext_move h
  | loadCA err =>
    simp only [Rotation.step, Option.ite_none_right_eq_some] at h
    obtain ⟨hpc, h⟩ := h
    cases err <;> cases h
    · exact .loadedCA hpc
    · exact .fail (by rw [hpc]; rfl) _
  | tick =>
    simp only [Rotation.step, Option.ite_none_right_eq_some, Option.some.injEq] at h
    obtain ⟨hpc, rfl⟩ := h
    exact .tick hpc
  | ctxDone =>
    simp only [Rotation.step, Option.ite_none_right_eq_some, Option.some.injEq] at h
    obtain ⟨hpc, rfl⟩ := h
    exact .stop hpc

/-! ## What is served and what is remembered -/

/-- A valid pair with certificate `cert` is served. -/
def ServesCert (fmt : CertFormat φ) (s : Rotation φ) (cert : Bytes) : Prop :=
  ∃ key, s.currentCert = some (cert, key) ∧ fmt.keyPair cert key = none

/-- What the watcher remembers is the fingerprint of what is served. -/
def Tracked (fmt : CertFormat φ) (s : Rotation φ) : Prop :=
  ∃ cert, s.lastFingerprint = some (fmt.fingerprint cert) ∧ ServesCert fmt s cert

/-- What a read of the file gives. -/
def readable : FileContents → Option Bytes
  | .unreadable _ => none
  | .data b => some b

/-- The first fingerprint is taken of the certificate that was loaded. -/
def StartsTracked (s : Rotation φ) (a : RotationAction) : Prop :=
  a = .run → s.pc = .start → ∀ cert ∈ readable s.cert, s.currentCert.map Prod.fst = some cert

section Tracking

variable [DecidableEq φ]

def fitsFingerprint (fmt : CertFormat φ) : RotationPc φ → Bool
  | .reload fp cert _ => fp = fmt.fingerprint cert
  | _ => true

/-- A pair is taken over for the fingerprint that it has. -/
def ReloadsTracked (fmt : CertFormat φ) (s : Rotation φ) (a : RotationAction) : Prop :=
  a = .run → fitsFingerprint fmt s.pc = true

instance (s : Rotation φ) (a : RotationAction) : Decidable (StartsTracked s a) := by
  unfold StartsTracked
  infer_instance

instance (s : Rotation φ) (a : RotationAction) : Decidable (ReloadsTracked fmt s a) := by
  unfold ReloadsTracked
  infer_instance

/-- What holds at each place of the boot and of the loop. -/
def AtPlace (fmt : CertFormat φ) (s : Rotation φ) : RotationPc φ → Prop
  | .loadCA | .start => ∃ cert, ServesCert fmt s cert
  | .wait | .check | .reloadCert _ | .reloadKey _ _ => Tracked fmt s
  | .reload _ cert key => Tracked fmt s ∧ fmt.keyPair cert key = none
  | .validate | .loadCert | .loadKey _ | .failed _ | .returned _ => True

theorem atPlace_move (h : AtPlace fmt s s.pc) (hstart : StartsTracked s a)
    (hreload : ReloadsTracked fmt s a) (hm : RotationMove fmt s a s') : AtPlace fmt s' s'.pc := by
  cases hm with
  | writeCert | writeKey => exact h
  | fail | validated | readCert | unwatched | stop => exact trivial
  | loaded hpc hpair => exact ⟨_, _, rfl, hpair⟩
  | watched hpc hcert =>
    rw [hpc] at h
    obtain ⟨cert, key, hcurrent, hpair⟩ := h
    have hloaded := hstart rfl hpc _ (by rw [hcert]; rfl)
    rw [hcurrent] at hloaded
    cases hloaded
    exact ⟨cert, rfl, key, hcurrent, hpair⟩
  | unreadable hpc =>
    obtain hpc | ⟨fp, hpc⟩ := hpc <;> rw [hpc] at h <;> exact h
  | loadedCA hpc | tick hpc | unchanged hpc | changed hpc | reread hpc | misfit hpc =>
    rw [hpc] at h
    exact h
  | fits hpc _ hpair =>
    rw [hpc] at h
    exact ⟨h, hpair⟩
  | reload hpc =>
    have hfits := hreload rfl
    rw [hpc] at h hfits
    exact ⟨_, congrArg some (of_decide_eq_true hfits), _, rfl, h.2⟩

end Tracking

/-! ## A tick during which the files stay as they are -/

/-- No file changes. -/
def Stable (_ : Rotation φ) : RotationAction → Prop
  | .writeCert _ | .writeKey _ => False
  | _ => True

/-- What holds from the tick on, `cert` and `key` being on disk. -/
def AfterTick (fmt : CertFormat φ) (cert key : Bytes) (s : Rotation φ) : RotationPc φ → Prop
  | .check => Tracked fmt s
  | .reloadCert fp => fp = fmt.fingerprint cert
  | .reloadKey fp cert' => fp = fmt.fingerprint cert ∧ cert' = cert
  | .reload fp cert' key' => fp = fmt.fingerprint cert ∧ cert' = cert ∧ key' = key
  | .wait => Tracked fmt s ∧ ServesCert fmt s cert
  | .returned _ => ServesCert fmt s cert
  | .validate | .loadCert | .loadKey _ | .loadCA | .start | .failed _ => False

/-- The files are a valid pair. -/
structure OnDisk (fmt : CertFormat φ) (s : Rotation φ) (cert key : Bytes) : Prop where
  certFile : s.cert = .data cert
  keyFile : s.key = .data key
  pair : fmt.keyPair cert key = none

variable {cert key : Bytes}

theorem afterTick_move (hsha : Function.Injective fmt.fingerprint) (hdisk : OnDisk fmt s cert key)
    (h : AfterTick fmt cert key s s.pc) (hstable : Stable s a) (hm : RotationMove fmt s a s') :
    OnDisk fmt s' cert key ∧ AfterTick fmt cert key s' s'.pc := by
  obtain ⟨hcert, hkey, hpair⟩ := hdisk
  cases hm with
  | writeCert | writeKey => exact hstable.elim
  | fail hpc =>
    cases hpc' : s.pc with
    | validate | loadCert | loadKey | loadCA =>
      rw [hpc'] at h
      exact h.elim
    | _ =>
      rw [hpc'] at hpc
      cases hpc
  | validated hpc | readCert hpc | loaded hpc | loadedCA hpc | unwatched hpc | watched hpc =>
    rw [hpc] at h
    exact h.elim
  | tick hpc =>
    rw [hpc] at h
    exact ⟨⟨hcert, hkey, hpair⟩, h.1⟩
  | stop hpc =>
    rw [hpc] at h
    exact ⟨⟨hcert, hkey, hpair⟩, h.2⟩
  | unreadable _ hbad =>
    rw [hcert] at hbad
    cases hbad
  | unchanged hpc hread hlast =>
    -- the fingerprint is the one remembered, so the certificate is the one served
    rw [hcert] at hread
    cases hread
    rw [hpc] at h
    obtain ⟨cert', hlast', hserves⟩ := h
    rw [hlast'] at hlast
    have heq : cert' = cert := hsha (Option.some.inj hlast)
    subst heq
    exact ⟨⟨hcert, hkey, hpair⟩, ⟨cert', hlast', hserves⟩, hserves⟩
  | changed hpc hread _ =>
    rw [hcert] at hread
    cases hread
    exact ⟨⟨hcert, hkey, hpair⟩, rfl⟩
  | reread hpc hread =>
    rw [hcert] at hread
    cases hread
    rw [hpc] at h
    exact ⟨⟨hcert, hkey, hpair⟩, h, rfl⟩
  | misfit hpc hbad =>
    rw [hpc] at h
    obtain ⟨-, rfl⟩ := h
    exact absurd hpair (hbad key hkey)
  | fits hpc hread _ =>
    rw [hkey] at hread
    cases hread
    rw [hpc] at h
    exact ⟨⟨hcert, hkey, hpair⟩, h.1, h.2, rfl⟩
  | reload hpc =>
    rw [hpc] at h
    obtain ⟨rfl, rfl, rfl⟩ := h
    exact ⟨⟨hcert, hkey, hpair⟩, ⟨_, rfl, _, rfl, hpair⟩, _, rfl, hpair⟩

/-- The watcher is not at work on a tick. -/
def TickDone : RotationPc φ → Prop
  | .check | .reloadCert _ | .reloadKey _ _ | .reload _ _ _ => False
  | _ => True

/-- After a tick during which the files stay as they are and form a valid pair, the certificate on
disk is served: whatever happened to the files before, if at boot and at every reload the two reads
of the certificate file gave the same. -/
theorem served_after_tick [DecidableEq φ] (hsha : Function.Injective fmt.fingerprint)
    {certPath : String} {cert₀ key₀ : FileContents} {s₁ s₂ : Rotation φ}
    (h : Reach (fun s => s.step fmt) (fun s a => StartsTracked s a ∧ ReloadsTracked fmt s a)
      (newRotation φ certPath cert₀ key₀) s)
    (hdisk : OnDisk fmt s cert key) (htick : s.step fmt .tick = some s₁)
    (hrun : Reach (fun s => s.step fmt) Stable s₁ s₂) (hdone : TickDone s₂.pc) :
    ServesCert fmt s₂ cert := by
  have hplace : AtPlace fmt s s.pc := by
    refine h.invariant (fun s => AtPlace fmt s s.pc) trivial fun s a s' _ hI hok hs => ?_
    exact atPlace_move hI hok.1 hok.2 (rotation_move hs)
  simp only [Rotation.step, Option.ite_none_right_eq_some, Option.some.injEq] at htick
  obtain ⟨hpc, rfl⟩ := htick
  rw [hpc] at hplace
  have hI : OnDisk fmt s₂ cert key ∧ AfterTick fmt cert key s₂ s₂.pc := by
    refine hrun.invariant (fun s => OnDisk fmt s cert key ∧ AfterTick fmt cert key s s.pc)
      ⟨⟨hdisk.certFile, hdisk.keyFile, hdisk.pair⟩, hplace⟩ fun s a s' _ hI hok hs => ?_
    exact afterTick_move hsha hI.1 hI.2 hok (rotation_move hs)
  have hafter := hI.2
  cases hpc₂ : s₂.pc with
  | wait =>
    rw [hpc₂] at hafter
    exact hafter.2
  | returned err =>
    rw [hpc₂] at hafter
    exact hafter
  | check | reloadCert | reloadKey | reload =>
    rw [hpc₂] at hdone
    exact hdone.elim
  | validate | loadCert | loadKey | loadCA | start | failed =>
    rw [hpc₂] at hafter
    exact hafter.elim

/-- Files in which a number stands for a certificate and for the key that fits it. -/
def numbered : CertFormat Bytes where
  certificates _ := 2
  keyPair cert key := if cert = key then none else some "private key does not match public key"
  fingerprint b := b

/-- A relay that starts with certificate 1. -/
def relayOne : Rotation Bytes := newRotation Bytes "relay.crt" (.data [1]) (.data [1])

def bootSteps : List RotationAction := [.run, .run, .run, .loadCA none]

instance (s : Rotation φ) (a : RotationAction) : Decidable (Stable s a) := by
  unfold Stable
  split <;> infer_instance

/-- Certificate 2 is put in place, a tick finds it without its key, and the next one with it. -/
theorem served_after_tick_two :
    ∃ s s₁ s₂,
      Reach (fun s => s.step numbered) (fun s a => StartsTracked s a ∧ ReloadsTracked numbered s a)
        relayOne s ∧
      OnDisk numbered s [2] [2] ∧ s.step numbered .tick = some s₁ ∧
      Reach (fun s => s.step numbered) Stable s₁ s₂ ∧ s₂.pc = .wait ∧
      ServesCert numbered s₂ [2] := by
  obtain ⟨s, hreach, rfl⟩ : ∃ s,
      Reach (fun s => s.step numbered) (fun s a => StartsTracked s a ∧ ReloadsTracked numbered s a)
        relayOne s ∧
      s = ⟨"relay.crt", .data [2], .data [2], .wait, some ([1], [1]), some [1]⟩ :=
    exists_reach_of_exec
      (bootSteps ++ [RotationAction.run, .writeCert (.data [2]), .tick, .run, .run, .run,
        .writeKey (.data [2])]) _ (by decide)
  have hdisk : OnDisk numbered
      ⟨"relay.crt", .data [2], .data [2], .wait, some ([1], [1]), some [1]⟩ [2] [2] :=
    ⟨rfl, rfl, rfl⟩
  have hrun : Reach (fun s => s.step numbered) Stable
      ⟨"relay.crt", .data [2], .data [2], .check, some ([1], [1]), some [1]⟩
      ⟨"relay.crt", .data [2], .data [2], .wait, some ([2], [2]), some [2]⟩ :=
    .of_exec [.run, .run, .run, .run] (by decide)
  exact ⟨_, _, _, hreach, hdisk, rfl, hrun, rfl,
    served_after_tick (fun _ _ h => h) hreach hdisk rfl hrun trivial⟩

/-! ## A rotation that is missed -/

/-- A valid pair is on disk; the watcher looks at it, and as long as it stays there its certificate
is not served. -/
def Missed [DecidableEq φ] (fmt : CertFormat φ) (s : Rotation φ) : Prop :=
  ∃ cert key, OnDisk fmt s cert key ∧
    (∃ s₁ s₂, s.step fmt .tick = some s₁ ∧ Reach (fun s => s.step fmt) Stable s₁ s₂ ∧
      s₂.pc = .wait) ∧
    ∀ s', Reach (fun s => s.step fmt) Stable s s' → ¬ ServesCert fmt s' cert

/-- The watcher remembers the certificate on disk and another one is served. -/
structure Overlooked (fmt : CertFormat φ) (cert : Bytes) (s : Rotation φ) : Prop where
  certFile : s.cert = .data cert
  remembered : s.lastFingerprint = some (fmt.fingerprint cert)
  other : ∀ key, s.currentCert ≠ some (cert, key)
  pc : s.pc = .wait ∨ s.pc = .check ∨ ∃ err, s.pc = .returned err

theorem overlooked_move (h : Overlooked fmt cert s) (hstable : Stable s a)
    (hm : RotationMove fmt s a s') : Overlooked fmt cert s' := by
  have elsewhere {pc : RotationPc φ} (hpc : s.pc = pc)
      (hne : ¬ (pc = .wait ∨ pc = .check ∨ ∃ err, pc = .returned err)) : False :=
    hne (hpc ▸ h.pc)
  obtain ⟨hcert, hlast, hother, hplace⟩ := h
  cases hm with
  | writeCert | writeKey => exact hstable.elim
  | fail hpc =>
    obtain hpc' | hpc' | ⟨err, hpc'⟩ := hplace <;> rw [hpc'] at hpc <;> cases hpc
  | validated hpc | readCert hpc | loaded hpc | loadedCA hpc | unwatched hpc | watched hpc
  | reread hpc | misfit hpc | fits hpc | reload hpc => exact (elsewhere hpc (by simp)).elim
  | tick => exact ⟨hcert, hlast, hother, .inr (.inl rfl)⟩
  | stop => exact ⟨hcert, hlast, hother, .inr (.inr ⟨.ctx, rfl⟩)⟩
  | unreadable | unchanged => exact ⟨hcert, hlast, hother, .inl rfl⟩
  | changed hpc hread hne =>
    rw [hcert] at hread
    cases hread
    exact absurd hlast hne

theorem missed_of_overlooked [DecidableEq φ] (hdisk : OnDisk fmt s cert key)
    (h : Overlooked fmt cert s) (hpc : s.pc = .wait) : Missed fmt s := by
  refine ⟨cert, key, hdisk, ⟨{ s with pc := .check }, { s with pc := .wait }, ?_, ?_, rfl⟩, ?_⟩
  · simp only [Rotation.step, hpc, if_true]
  · refine .tail (a := .run) .refl trivial ?_
    show ({ s with pc := .check } : Rotation φ).runNext fmt .check = some { s with pc := .wait }
    simp only [Rotation.runNext, h.certFile, h.remembered, if_true]
  · intro s' hrun
    have hI : Overlooked fmt cert s' :=
      hrun.invariant (Overlooked fmt cert) h fun s a s' _ hI hok hs =>
        overlooked_move hI hok (rotation_move hs)
    rintro ⟨key', hcurrent, -⟩
    exact hI.other key' hcurrent

/-- The certificate changes between boot and the first fingerprint; or it changes between the
fingerprint and the load of a tick, and then back. -/
theorem rotation_missed :
    (∃ s, Reach (fun s => s.step numbered) (ReloadsTracked numbered) relayOne s ∧
      Missed numbered s) ∧
    ∃ s, Reach (fun s => s.step numbered) StartsTracked relayOne s ∧ Missed numbered s := by
  constructor
  · obtain ⟨s, hreach, hcert, hkey, hpc, hlast, hcurrent⟩ : ∃ s,
        Reach (fun s => s.step numbered) (ReloadsTracked numbered) relayOne s ∧
        s.cert = .data [2] ∧ s.key = .data [2] ∧ s.pc = .wait ∧ s.lastFingerprint = some [2] ∧
        s.currentCert = some ([1], [1]) :=
      exists_reach_of_exec
        (bootSteps ++ [RotationAction.writeCert (.data [2]), .writeKey (.data [2]), .run]) _
        (by decide)
    refine ⟨s, hreach, missed_of_overlooked ⟨hcert, hkey, rfl⟩ ⟨hcert, hlast, ?_, .inl hpc⟩ hpc⟩
    rw [hcurrent]
    nofun
  · obtain ⟨s, hreach, hcert, hkey, hpc, hlast, hcurrent⟩ : ∃ s,
        Reach (fun s => s.step numbered) StartsTracked relayOne s ∧
        s.cert = .data [2] ∧ s.key = .data [2] ∧ s.pc = .wait ∧ s.lastFingerprint = some [2] ∧
        s.currentCert = some ([3], [3]) :=
      exists_reach_of_exec
        (bootSteps ++ [RotationAction.run, .writeCert (.data [2]), .writeKey (.data [2]), .tick,
          .run, .writeCert (.data [3]), .writeKey (.data [3]), .run, .run, .run,
          .writeCert (.data [2]), .writeKey (.data [2])]) _ (by decide)
    refine ⟨s, hreach, missed_of_overlooked ⟨hcert, hkey, rfl⟩ ⟨hcert, hlast, ?_, .inl hpc⟩ hpc⟩
    rw [hcurrent]
    nofun

end Atlax.Analysis
