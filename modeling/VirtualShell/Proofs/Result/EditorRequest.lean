import VirtualShell.Result
import VirtualShell.Proofs.Text.Base64

/-!
# Editor requests in their text form

The text form of an editor request is a mark, the name of the file, a colon and the content of the
file in Base64. The name may hold any number of colons, but Base64 holds none, so the last colon of
the whole text is the one that ends the name, whatever the content is (`splitLastColon?_append`).
Behind it stand the bytes of the content in UTF-8. So a request is read back from its text form
(`reads_encoded_request`).
-/

namespace VirtualShell.HostAction

/-- A text is cut at a colon behind which there is no other. -/
theorem splitLastColon?_append (front : List Char) {back : List Char} (h : ':' ∉ back) :
    splitLastColon? (front ++ ':' :: back) = some (front, back) := by
  have hreverse : (front ++ ':' :: back).reverse = back.reverse ++ ':' :: front.reverse := by
    simp
  have htail : (back.reverse ++ ':' :: front.reverse).takeWhile (· != ':') = back.reverse := by
    rw [List.takeWhile_append_of_pos, List.takeWhile_cons_of_neg (by simp), List.append_nil]
    intro c hc
    rw [bne_iff_ne]
    rintro rfl
    exact h (List.mem_reverse.mp hc)
  rw [splitLastColon?, hreverse, htail]
  simp

/-- The bytes that write a text in UTF-8. -/
def bytesOf (text : String) : List Nat :=
  text.toUTF8.data.toList.map UInt8.toNat

/-- The bytes of a text are below 256. -/
theorem lt_of_mem_bytesOf {text : String} : ∀ b ∈ bytesOf text, b < 256 := by
  intro b hb
  obtain ⟨byte, -, rfl⟩ := List.mem_map.mp hb
  exact byte.toNat_lt

/-- The bytes of a text in UTF-8 are read as that text. -/
theorem textOfBytes?_bytesOf (text : String) : textOfBytes? (bytesOf text) = some text := by
  have hbytes : (bytesOf text).map Nat.toUInt8 = text.toUTF8.data.toList := by
    rw [bytesOf, List.map_map]
    simp [Function.comp_def]
  rw [textOfBytes?, hbytes, Array.toArray_toList]
  exact dif_pos text.isValidUTF8

/-- A request is the mark, the name, a colon and the content in base 64. -/
theorem toList_encode_openEditor (filename content : String) :
    (encode (.openEditor filename content)).toList
      = editorMark.toList ++ (filename.toList ++ ':' :: Text.Base64.encode (bytesOf content)) := by
  simp [encode, bytesOf]

/-- A request to open the editor on a file is read back from its text form, whatever the name and
the content of the file are. -/
theorem reads_encoded_request (filename content : String) :
    decodeEditor? (encode (.openEditor filename content))
      = some (.openEditor filename content) := by
  have hbytes : ∀ b ∈ bytesOf content, b < 256 := lt_of_mem_bytesOf
  have hwritten := Text.Base64.written_of_mem_encode hbytes
  have hcolon : ':' ∉ Text.Base64.encode (bytesOf content) := by
    intro hmem
    exact (hwritten ':' hmem).ne_colon rfl
  have hascii : (Text.Base64.encode (bytesOf content)).all (fun c => c.toNat < 0x80) = true := by
    rw [List.all_eq_true]
    intro c hc
    exact decide_eq_true (hwritten c hc).toNat_lt
  have hmark : editorMark.toList.isPrefixOf (encode (.openEditor filename content)).toList
      = true := by
    rw [toList_encode_openEditor]
    exact List.isPrefixOf_iff_prefix.mpr (List.prefix_append _ _)
  have hdrop : (encode (.openEditor filename content)).toList.drop editorMark.length
      = filename.toList ++ ':' :: Text.Base64.encode (bytesOf content) := by
    rw [toList_encode_openEditor, ← String.length_toList, List.drop_left]
  simp only [decodeEditor?, hmark, hdrop, splitLastColon?_append _ hcolon, hascii, Bool.not_true,
    Bool.false_eq_true, if_false, bind, Option.bind, Text.Base64.decode?_encode hbytes,
    textOfBytes?_bytesOf, String.ofList_toList]

end VirtualShell.HostAction
