import TestOrch.Core.Chunks
import TestOrch.Core.Utf8

/-!
# The log lines of a container (`stream_logs` in `worker/docker_engine.py`)

Each chunk that the Docker SDK returns is decoded by itself and yielded without the newlines at its
end. The strings are the lines of the output if and only if the chunks are lines themselves, up to
blank lines that come with a chunk before or after (`streamLogs_iff`).
-/

namespace TestOrch

/-- `DockerEngine.stream_logs`, for the chunks that `container.logs` gives. -/
def streamLogs (chunks : List (List UInt8)) : List String :=
  chunks.map fun raw => String.ofList ((Utf8.decode raw).rdropWhile (· = '\n'))

def outputLines (output : List UInt8) : List String :=
  (Chunks.lines '\n' (Utf8.decode output)).map String.ofList

def newline : UInt8 := 10

/-- The chunks are as many as the lines, and where a chunk has text it is all of its line. -/
structure ChunksAreLines (chunks : List (List UInt8)) : Prop where
  /-- No chunk has a newline before other text. -/
  single : ∀ chunk ∈ chunks, newline ∉ Chunks.textOf newline chunk
  aligned : Chunks.Aligned newline chunks

/-- The decoder works line by line. -/
lemma utf8_decoder : Chunks.Decoder newline '\n' Utf8.decode where
  newline := Utf8.decode_newline
  free _ := Utf8.newline_not_mem_decode
  blank _ := Utf8.decode_eq_nil

/-- What is yielded for the chunks of an output are its lines exactly if the chunks are lines. -/
theorem streamLogs_iff (chunks : List (List UInt8)) :
    streamLogs chunks = outputLines chunks.flatten ↔ ChunksAreLines chunks := by
  have htexts : streamLogs chunks =
      (chunks.map fun raw => Chunks.textOf '\n' (Utf8.decode raw)).map String.ofList := by
    rw [List.map_map]
    rfl
  have hinjective : Function.Injective (List.map String.ofList) :=
    List.map_injective_iff.mpr fun _ _ h => String.ofList_injective h
  rw [htexts, outputLines, hinjective.eq_iff, Chunks.decoded_lines_iff utf8_decoder]
  exact ⟨fun h => ⟨h.1, h.2⟩, fun h => ⟨h.single, h.aligned⟩⟩

/-- A line that is cut in two is yielded as two. -/
theorem cutLine_not_lines :
    ¬ ∀ chunks : List (List UInt8), streamLogs chunks = outputLines chunks.flatten := by
  intro h
  have hcut := h [[97], [98, 10]]
  exact absurd hcut (by decide)

end TestOrch
