import OpenAiLb.HeaderSecrecy

/-!
# The usage of a stream

A stream reaches the proxy in chunks, and the usage is read from its lines. As long as no
line outgrows the buffer, the usage depends on the bytes of the stream and not on how they
were cut into chunks.
-/

namespace OpenAiLb

section Lines

/-- The lines of two pieces are found one piece after the other. -/
theorem drainLines_append (line first second : List UInt8) :
    drainLines line (first ++ second) =
      ((drainLines line first).1 ++ (drainLines (drainLines line first).2 second).1,
        (drainLines (drainLines line first).2 second).2) := by
  induction first generalizing line with
  | nil => simp [drainLines]
  | cons byte rest ih =>
    by_cases hbyte : byte = lineFeed
    · simp [drainLines, hbyte, ih]
    · simp [drainLines, hbyte, ih]

/-- Bytes without a line feed extend the line. -/
theorem drainLines_of_notMem {pending : List UInt8} (h : lineFeed ∉ pending)
    (line rest : List UInt8) :
    drainLines line (pending ++ rest) = drainLines (line ++ pending) rest := by
  induction pending generalizing line with
  | nil => simp
  | cons byte pending ih =>
    have hbyte : byte ≠ lineFeed := fun heq => h (heq ▸ List.mem_cons_self)
    have hpending : lineFeed ∉ pending := fun hmem => h (List.mem_cons_of_mem _ hmem)
    simp [drainLines, hbyte, ih hpending]

/-- What is left after the last line feed has none. -/
theorem lineFeed_notMem_drainLines {line : List UInt8} (h : lineFeed ∉ line)
    (bytes : List UInt8) : lineFeed ∉ (drainLines line bytes).2 := by
  induction bytes generalizing line with
  | nil => exact h
  | cons byte rest ih =>
    by_cases hbyte : byte = lineFeed
    · have hempty := @ih [] (by simp)
      simpa [drainLines, hbyte] using hempty
    · have hnext : lineFeed ∉ line ++ [byte] := by
        simp [h, Ne.symm hbyte]
      have hlonger := ih hnext
      simpa [drainLines, hbyte] using hlonger

end Lines

section Chunks

variable {serde : SerdeJson}

/-- No line outgrows the buffer of `update_sse_usage`. -/
def FitsBuffer (bytes : List UInt8) : Prop :=
  ∀ seen, seen <+: bytes → (drainLines [] seen).2.length ≤ 2 * 1024 * 1024

/-- The buffer and the usage after some chunks. -/
def readChunks (serde : SerdeJson) (chunks : List (List UInt8)) : List UInt8 × Usage :=
  chunks.foldl (fun seen bytes => updateSseUsage serde seen.1 bytes seen.2) ([], .zero)

/-- **Only the bytes of a stream count**: the buffer holds what follows the last line feed, and the
usage is that of the complete lines. -/
theorem readChunks_of_fits {chunks : List (List UInt8)} (h : FitsBuffer chunks.flatten) :
    readChunks serde chunks = ((drainLines [] chunks.flatten).2,
      (drainLines [] chunks.flatten).1.foldl (mergeLine serde) .zero) := by
  induction chunks using List.reverseRecOn with
  | nil => rfl
  | append_singleton chunks bytes ih =>
    have hflatten : (chunks ++ [bytes]).flatten = chunks.flatten ++ bytes := by simp
    rw [hflatten] at h ⊢
    have hbefore := ih fun seen hseen => h seen (hseen.trans (List.prefix_append _ _))
    have hstep : readChunks serde (chunks ++ [bytes]) = updateSseUsage serde
        (readChunks serde chunks).1 bytes (readChunks serde chunks).2 := by
      simp [readChunks]
    have hempty : lineFeed ∉ ([] : List UInt8) := by simp
    have hopen := lineFeed_notMem_drainLines hempty chunks.flatten
    have hdrain := drainLines_of_notMem hopen [] bytes
    rw [List.nil_append] at hdrain
    have hfits := h (chunks.flatten ++ bytes) List.prefix_rfl
    rw [drainLines_append] at hfits
    dsimp only at hfits
    rw [hstep, hbefore, drainLines_append]
    simp only [updateSseUsage, hdrain, List.foldl_append]
    rw [if_neg (by omega)]

end Chunks

end OpenAiLb
